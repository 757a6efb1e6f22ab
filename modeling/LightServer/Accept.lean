import LightServer.Base.EdgeQueue
import LightServer.Control

/-! The connections that wait to be accepted, as a work queue behind the edge-triggered
event of the listening socket: `HandleAccept` accepts one of them an event. -/
namespace LightServer

namespace Host

variable {h h' next : Host}

def isListening (h : Host) : Prop := h.interest h.listenSocket = some .listenSocket

/-- An event of the listening socket is pending, or its registration is still to report one. -/
def acceptDue (h : Host) : Prop := h.listenReady = true ∨ ¬ h.isListening

instance (h : Host) : Decidable h.acceptDue := inferInstanceAs (Decidable (_ ∨ ¬ (_ = _)))

def acceptState (phase : EdgeQueue.Phase) (h : Host) : EdgeQueue.State Nat := ⟨h.backlog,h.acceptDue,phase⟩

abbrev AcceptSteps := Relation.ReflTransGen (@EdgeQueue.Step Nat 1)

/-- Nothing happens to the listening socket, unless its registration is dropped. -/
structure KeepsListening (h h' : Host) : Prop where
  backlog : h'.backlog = h.backlog
  listenReady : h'.listenReady = h.listenReady
  listenSocket : h'.listenSocket = h.listenSocket
  isListening : h'.isListening → h.isListening

namespace KeepsListening

theorem refl (h : Host) : KeepsListening h h := ⟨rfl,rfl,rfl,id⟩

theorem trans (first : KeepsListening h h') (second : KeepsListening h' next) : KeepsListening h next :=
  ⟨second.backlog.trans first.backlog,second.listenReady.trans first.listenReady,
    second.listenSocket.trans first.listenSocket,first.isListening ∘ second.isListening⟩

theorem of_same (backlog : h'.backlog = h.backlog) (listenReady : h'.listenReady = h.listenReady)
    (listenSocket : h'.listenSocket = h.listenSocket) (interest : h'.interest = h.interest) : KeepsListening h h' :=
  ⟨backlog,listenReady,listenSocket,by rw [Host.isListening,interest,listenSocket]; exact id⟩

theorem of_quiet {α β : Type} {view : SocketObject → α} {seen : Obs → Option β} (quiet : Quiet view seen h h') :
    KeepsListening h h' := of_same quiet.backlog quiet.listenReady quiet.listenSocket quiet.interest

theorem deleteFD (fd : FD) (h : Host) : KeepsListening h (h.deleteFD fd) := by
  refine ⟨rfl,rfl,rfl,fun listening => ?_⟩
  by_cases same : h.listenSocket = fd
  · simp [Host.isListening,Host.deleteFD,same] at listening
  · simpa [Host.isListening,Host.deleteFD,same] using listening

theorem addFD (fd : FD) (p : Ptr) (refused : Bool) (h : Host) : KeepsListening h (h.addFD fd (.object p) refused).2 := by
  unfold Host.addFD
  split
  · exact refl h
  · refine ⟨rfl,rfl,rfl,fun listening => ?_⟩
    by_cases same : h.listenSocket = fd
    · simp [Host.isListening,same] at listening
    · simpa [Host.isListening,same] using listening

theorem prepareObject (raw : SocketObject) (addr : Option Sockaddr) (connected : Option UInt32) (h : Host) :
    KeepsListening h (h.prepareObject raw addr connected).2 := by
  cases addr <;> cases connected <;> exact of_same rfl rfl rfl rfl

theorem insertSocketObject (sock : SOCKET) (p : Ptr) (h : Host) : KeepsListening h (h.insertSocketObject sock p) :=
  of_same rfl rfl rfl rfl

theorem addTcpSocket (sock : SOCKET) (addr : Sockaddr) (raw : SocketObject) (now : UInt32) (refused : Bool) (h : Host) :
    KeepsListening h (h.addTcpSocket sock addr raw now refused).2.2 :=
  h.addTcpSocket_rule sock addr raw now refused (refl h) (prepareObject raw (some addr) (some now) h)
    (fun host p kept => trans kept (insertSocketObject sock p host)) (fun host p kept => trans kept (addFD sock p refused host))

theorem releaseSocketObjects (h : Host) : KeepsListening h h.releaseSocketObjects := by
  have dropped (fd : FD) (p : Ptr) (host : Host) : KeepsListening host ((host.deleteFD fd).deleteObject p) :=
    trans (deleteFD fd host) (of_same rfl rfl rfl rfl)
  obtain ⟨host,kept,same⟩ := h.releaseSocketObjects_rule (P := KeepsListening h) (refl h)
    (fun host entry _ kept => trans kept (dropped entry.1 entry.2 host))
  exact same ▸ trans kept (of_same rfl rfl rfl rfl)

theorem steps (kept : KeepsListening h h') (phase : EdgeQueue.Phase) :
    AcceptSteps (h.acceptState phase) (h'.acceptState phase) := by
  rw [acceptState,acceptState,kept.backlog]
  exact EdgeQueue.weaken 1 h.backlog phase (Or.imp kept.listenReady.trans (mt kept.isListening))

end KeepsListening

theorem closeFD_steps (fd : FD) (h : Host) (phase : EdgeQueue.Phase) :
    AcceptSteps (h.acceptState phase) ((h.closeFD fd).acceptState phase) := by
  by_cases opened : h.isOpen fd = true
  · by_cases same : fd = h.listenSocket
    · refine .head (.discard h.backlog _ phase) ?_
      have closed : (h.closeFD fd).backlog = [] := by
        rw [closeFD,if_pos opened]
        simp [same]
      rw [acceptState,closed]
      exact .single (.settle _ _ phase)
    · refine KeepsListening.steps ⟨?_,?_,?_,fun listening => ?_⟩ phase
      iterate 3 simp [closeFD,opened,same]
      simpa [isListening,closeFD,opened,same,Ne.symm same] using listening
  · simpa [closeFD,opened] using Relation.ReflTransGen.refl

theorem closeManagerFds_steps (h : Host) (phase : EdgeQueue.Phase) :
    AcceptSteps (h.acceptState phase) (h.closeManagerFds.acceptState phase) :=
  h.closeManagerFds_rule (P := fun host => AcceptSteps (h.acceptState phase) (host.acceptState phase)) .refl
    (fun host fd steps => steps.trans ((KeepsListening.deleteFD fd host).steps phase))
    (fun host fd steps => steps.trans (closeFD_steps fd host phase)) (fun _ => id)

end Host

namespace Sys

def listens (ev : EpollEvent) : Bool := ev.ptr = .listenSocket

def restPhase (rest : List EpollEvent) : EdgeQueue.Phase := if rest.any listens then .signalled else .idle

def acceptPhase : Worker → EdgeQueue.Phase
  | .accept _ => .serving 1
  | .beforeIo .listenSocket _ _ => .signalled
  | worker => restPhase worker.place.rest

theorem acceptPhase_resume (ctx : Ctx) : acceptPhase (resume ctx) = restPhase ctx.place.rest := by cases ctx <;> rfl

theorem acceptPhase_afterRead (rs : Bool) (p : Ptr) (events : UInt32) (ctx : Ctx) :
    acceptPhase (afterRead rs p events ctx) = restPhase ctx.place.rest :=
  afterRead_rule (P := fun w => acceptPhase w = restPhase ctx.place.rest) rfl (acceptPhase_resume ctx) rs events

theorem acceptPhase_doProcessIo (p : Ptr) (events : UInt32) (ctx : Ctx) :
    acceptPhase (doProcessIo p events ctx) = restPhase ctx.place.rest :=
  doProcessIo_rule (P := fun w => acceptPhase w = restPhase ctx.place.rest) rfl rfl (acceptPhase_resume ctx)

/-- The number of connections one event of the listening socket can serve. -/
def acceptBudget (events : UInt32) : Nat := if has events (epollerr ||| epollhup) then 0 else 1

/-- Where `HandleAccept` is entered, it can accept all that wait, or a further event is due. -/
def AcceptsAll (s : Sys) (act : Act) : Prop :=
  match s.worker, act with
  | .beforeIo .listenSocket events _, .beforeIo _ _ => EdgeQueue.Ample (acceptBudget events) s.host.backlog s.host.acceptDue
  | _, _ => True

instance (s : Sys) (act : Act) : Decidable (AcceptsAll s act) := by
  unfold AcceptsAll
  split
  · exact inferInstanceAs (Decidable (_ ∨ _))
  · exact inferInstance

/-- `accept` fails only where no connection waits. -/
def AcceptWorks (s : Sys) (act : Act) : Prop :=
  match act with
  | .accept (.error _) => s.host.backlog = []
  | _ => True

instance (s : Sys) (act : Act) : Decidable (AcceptWorks s act) := by
  unfold AcceptWorks
  split <;> infer_instance

def acceptState (s : Sys) : EdgeQueue.State Nat := s.host.acceptState (acceptPhase s.worker)

/-- Once the connections of an event have been served, the rest of the batch decides. -/
private theorem rest_steps (queue : List Nat) (due : Prop) (rest : List EpollEvent) :
    Host.AcceptSteps ⟨queue,due,.idle⟩ ⟨queue,due,restPhase rest⟩ := by
  by_cases more : rest.any listens = true
  · rw [restPhase,if_pos more]
    exact .single (.take queue due due)
  · rw [restPhase,if_neg more]

theorem accept_work {s : Sys} {act : Act} {host : Host} {worker : Worker} (all : AcceptsAll s act) (works : AcceptWorks s act)
    (move : Move s.host s.worker act host worker) :
    Host.AcceptSteps s.acceptState (s.moveTo host worker).acceptState := by
  have kept (keeps : Host.KeepsListening s.host host) (phase : acceptPhase worker = acceptPhase s.worker) :
      Host.AcceptSteps s.acceptState (s.moveTo host worker).acceptState := by
    change Host.AcceptSteps _ (host.acceptState (acceptPhase worker))
    exact phase ▸ keeps.steps (acceptPhase s.worker)
  obtain ⟨h,w,callers,stopCalled⟩ := s
  cases move with
  | interrupted code => exact kept (.refl h) rfl
  | delivered fds batch found filled none_left =>
    by_cases heard : batch.any listens = true
    · have phase : acceptPhase (.batch ⟨true,batch⟩) = .signalled := if_pos heard
      change Host.AcceptSteps _ ((clearReady batch h).acceptState (acceptPhase (.batch ⟨true,batch⟩)))
      rw [phase]
      exact .single (.take h.backlog _ _)
    · have unheard : batch.any (fun ev => ev.ptr = .listenSocket) = false := by simpa [listens] using heard
      exact kept ⟨rfl,by simp [clearReady,unheard],rfl,id⟩ (if_neg heard)
  | batchEnd bRun =>
    apply kept (.refl h)
    cases bRun <;> rfl
  | cmdEvent bRun rest ev ptr input => exact kept (.refl h) (by simp [acceptPhase,restPhase,listens,ptr,Worker.place,Place.rest])
  | skipped bRun rest ev ptr none =>
    apply kept (.refl h)
    rcases ptr with ptr | ptr <;> simp [acceptPhase,restPhase,listens,ptr,Worker.place,Place.rest]
  | timerEvent bRun rest ev ptr input =>
    exact kept (.refl h) (by simp [acceptPhase,restPhase,listens,ptr,Worker.place,Place.rest])
  | exitEvent bRun rest ev ptr => exact kept (.refl h) (by simp [acceptPhase,restPhase,listens,ptr,Worker.place,Place.rest])
  | ioEvent bRun rest ev ptr =>
    apply kept (.refl h)
    rcases ptr with ptr | ⟨p,ptr⟩ <;> simp [acceptPhase,restPhase,listens,ptr,Worker.place,Ctx.place,Place.rest]
  | commandsDone count b finished => exact kept (.refl h) rfl
  | sendCommand count b cmd queue p front left kind found => exact kept (.refl h) rfl
  | ignored count b cmd queue front left none => exact kept (.refl h) rfl
  | disconnected count b cmd queue p object front left kind found live valid => exact kept (.of_same rfl rfl rfl rfl) rfl
  | popCommand count b => exact kept (.of_same rfl rfl rfl rfl) rfl
  | closeAccepted sock ctx =>
    change Host.AcceptSteps _ ((h.closeFD sock).acceptState (acceptPhase (resume ctx)))
    rw [acceptPhase_resume]
    exact Host.closeFD_steps sock h (restPhase ctx.place.rest)
  | connected p sock ctx => exact kept (.of_same rfl rfl rfl rfl) (acceptPhase_resume ctx)
  | readyWrite p ctx valid => exact kept (.refl h) rfl
  | writeInvalid p ctx => exact kept (.refl h) (acceptPhase_resume ctx)
  | sendDone p ctx empty => exact kept (.refl h) (acceptPhase_resume ctx)
  | sendPacket p ctx packet front => exact kept (.refl h) rfl
  | packetSent p ctx packet front empty => exact kept (.refl h) rfl
  | popPacket p ctx => exact kept (.of_same rfl rfl rfl rfl) rfl
  | removeFD p sock count b => exact kept (.deleteFD sock h) rfl
  | removeClose p sock count b => exact Host.closeFD_steps sock h _
  | removeDelete p sock count b => exact kept (.of_same rfl rfl rfl rfl) rfl
  | removeErase p sock count b => exact kept (.of_same rfl rfl rfl rfl) rfl
  | timerFailed now b => exact kept (.refl h) rfl
  | timer exp now b => exact kept (.of_quiet (Host.onTimer_calm exp now h)) rfl
  | listenError events ctx soError now kind error =>
    have ample : EdgeQueue.Ample 0 h.backlog h.acceptDue := by simpa [AcceptsAll,acceptBudget,error] using all
    refine .head (.start h.backlog _ 0 (by simp) ample) (.head (.finish h.backlog _ 0 (.inr rfl)) ?_)
    change Host.AcceptSteps _ (h.acceptState (acceptPhase (resume ctx)))
    rw [acceptPhase_resume]
    exact rest_steps h.backlog _ ctx.place.rest
  | listen events ctx soError now kind fine =>
    have ample : EdgeQueue.Ample 1 h.backlog h.acceptDue := by simpa [AcceptsAll,acceptBudget,fine] using all
    exact .single (.start h.backlog _ 1 le_rfl ample)
  | serverIo p events ctx soError now kind => exact kept (.refl h) (acceptPhase_doProcessIo p events ctx)
  | clientRefused p events ctx soError now kind refused =>
    exact kept (.of_quiet (Host.onBeforeProcessIo_refused refused)) (acceptPhase_resume ctx)
  | clientIo p events ctx soError now kind passed =>
    refine kept ?_ (acceptPhase_doProcessIo p events ctx)
    obtain ⟨object,_,_,⟨_,result⟩ | ⟨_,result⟩⟩ := Host.onBeforeProcessIo_accepted passed
    · rw [result]
      exact .refl h
    · rw [result]
      exact .of_same rfl rfl rfl rfl
  | acceptFailed code ctx =>
    refine .head (.finish h.backlog _ 1 (.inl works)) ?_
    change Host.AcceptSteps _ (h.acceptState (acceptPhase (resume ctx)))
    rw [acceptPhase_resume]
    exact rest_steps h.backlog _ ctx.place.rest
  | accepted sock addr ctx conn rest listening waiting nonneg unused =>
    change Host.AcceptSteps ⟨h.backlog,_,_⟩ _
    rw [waiting]
    exact .head (.serve conn rest _ 0) (.head (.finish rest _ 0 (.inr rfl)) (rest_steps rest _ ctx.place.rest))
  | nonBlocking sock addr ctx => exact kept (.refl h) rfl
  | blocking sock addr ctx => exact kept (.refl h) (acceptPhase_resume ctx)
  | added sock addr ctx raw now refused ok => exact kept (.addTcpSocket sock addr raw now refused h) rfl
  | notAdded sock addr ctx raw now refused failed => exact kept (.addTcpSocket sock addr raw now refused h) rfl
  | readInvalid p events ctx now none => exact kept (.refl h) (acceptPhase_resume ctx)
  | readStarted p events ctx now sock next started => exact kept (.of_quiet (Host.startReceive_calm started).1) rfl
  | readOn p sock events ctx rc addr timeMs fits again =>
    refine kept ?_ rfl
    obtain ⟨mid,buf,from_addr,calm,result⟩ := Host.handleReceive_again again
    rw [result]
    exact .trans (.of_quiet calm) (.of_same rfl rfl rfl rfl)
  | readDone p sock events ctx rc addr timeMs rs fits done =>
    exact kept (.of_quiet (Host.handleReceive_done done)) (acceptPhase_afterRead rs p events ctx)
  | written p ctx packet count front left fits =>
    obtain ⟨addr,sent⟩ := h.handleSend_ok p packet count
    refine kept ?_ rfl
    rw [sent]
    exact .of_same rfl rfl rfl rfl
  | writeFailed p ctx code => exact kept (.refl h) (acceptPhase_resume ctx)

theorem accept_call {s : Sys} {t : Nat} {c c' : Caller} {reply : Reply} {host : Host}
    (call : CallStep s.host s.worker c reply host c') :
    Host.AcceptSteps s.acceptState (acceptState ({s with host := host}.setCaller t c')) := by
  have kept (keeps : Host.KeepsListening s.host host) :
      Host.AcceptSteps s.acceptState (acceptState ({s with host := host}.setCaller t c')) :=
    keeps.steps (acceptPhase s.worker)
  have close (fd : FD) : Host.AcceptSteps s.acceptState ((s.host.closeFD fd).acceptState (acceptPhase s.worker)) :=
    Host.closeFD_steps fd s.host _
  cases call with
  | evtWrite next =>
    apply kept
    unfold Host.writeCmdEvt
    split <;> exact .of_same rfl rfl rfl rfl
  | connected op addr sock raw now from_addr => exact kept (.prepareObject raw from_addr (some now) s.host)
  | inProgress addr sock raw => exact kept (.prepareObject raw (some addr) none s.host)
  | addFD sock p notify reply refused => exact kept (.addFD sock p refused s.host)
  | closeSock sock => exact close sock
  | closeListenSocket => exact close s.host.listenSocket
  | release => exact kept (.releaseSocketObjects s.host)
  | closeFds => exact s.host.closeManagerFds_steps _
  | _ => exact kept (.of_same rfl rfl rfl rfl)

theorem accept_arrive (conn : Nat) (h : Host) (phase : EdgeQueue.Phase) :
    Host.AcceptSteps (h.acceptState phase) ((arrive conn h).acceptState phase) := by
  have due : (arrive conn h).acceptDue := by
    by_cases listening : h.isListening
    · exact .inl (by simp [arrive,show h.interest h.listenSocket = some .listenSocket from listening])
    · exact .inr listening
  exact EdgeQueue.arrivals 1 [conn] h.backlog phase (fun _ => due) (fun _ => due)

theorem accept_start (refused : Bool) (h : Host) (phase : EdgeQueue.Phase) :
    Host.AcceptSteps (h.acceptState phase) ((startAccept refused h).acceptState phase) := by
  unfold startAccept Host.addFD
  split
  · simpa using Relation.ReflTransGen.refl
  · have settled {queue : List Nat} (none_waits : queue = []) (due later : Prop) :
        Host.AcceptSteps ⟨queue,due,phase⟩ ⟨queue,later,phase⟩ := by
      rw [none_waits]
      exact .single (.settle due later phase)
    by_cases waiting : h.backlog = []
    · exact settled waiting _ _
    · exact EdgeQueue.weaken 1 h.backlog phase (fun _ => Or.inl (decide_eq_true waiting))

theorem accept_step {s next : Sys} {act : Act} (all : AcceptsAll s act) (works : AcceptWorks s act)
    (taken : s.step act = some next) : Host.AcceptSteps s.acceptState next.acceptState := by
  cases step_taken taken with
  | arrive conn kind listening => exact accept_arrive conn s.host _
  | startAccept refused kind => exact accept_start refused s.host _
  | caller t c reply host next found may call => exact accept_call call
  | worker act host worker idle move => exact accept_work all works move
  | _ => exact .refl

/-- The worker is not left waiting with connections established and no event of the
listening socket pending. -/
def AllAccepted (s : Sys) : Prop :=
  s.worker = .epollPwait → s.host.isListening → s.host.listenReady = false → s.host.backlog = []

instance (s : Sys) : Decidable s.AllAccepted := inferInstanceAs (Decidable (_ → _ = _ → _ → _))

/-- No connection is lost as long as `HandleAccept` is entered with no more than it accepts. -/
theorem connections_accepted {config : Config} {acts : List Act} {s : Sys} (run : Run config acts s)
    (works : Transition.Along Sys.step AcceptWorks config.started acts)
    (all : Transition.Along Sys.step AcceptsAll config.started acts) : s.AllAccepted := by
  intro waiting listening quiet
  have steps := Transition.exec_simulated acceptState (I := fun _ => True) (fun _ _ _ _ _ _ => trivial)
    (fun _ _ _ both _ taken => accept_step both.1 both.2 taken) (all.and works) trivial run
  refine EdgeQueue.idle_covered steps ?_ ?_ ?_
  · refine .inr (.inr ?_)
    simp only [Host.isListening,Config.started,Config.interest]
    split_ifs <;> simp
  · simp [acceptState,Host.acceptState,waiting,acceptPhase,Worker.place,Place.rest,restPhase]
  · simp [acceptState,Host.acceptState,Host.acceptDue,quiet,listening]

/-- The worker accepts a connection and goes back to wait. -/
def acceptOne (sock : FD) : List Act :=
  [.epollPwait (.ok [(3,epollin)]),.worker,.beforeIo (.ok 0) 0,.accept (.ok (sock,[])),.setNonBlocking true,
   .addTcpSocket .blank 0 false,.worker,.worker]

/-- Connections that arrive before the worker wakes up, and one event for all of them. -/
def connectionBurst (arrivals : Nat) : List Act :=
  .startAccept false::List.replicate arrivals (.arrive 0) ++ acceptOne 7

theorem one_connection_accepted :
    ∃ s, Run (.plain .tcpServer 1) (connectionBurst 1) s ∧ s.worker = .epollPwait ∧ s.AllAccepted := by
  obtain ⟨s,run,waiting⟩ := run_reaches (.plain .tcpServer 1) (connectionBurst 1) (fun s => s.worker = .epollPwait)
    (by decide +kernel)
  exact ⟨s,run,waiting,connections_accepted run (by decide +kernel) (by decide +kernel)⟩

/-- Of two connections that share an event the second one stays in the accept queue. -/
theorem second_connection_lost :
    ∃ s, Run (.plain .tcpServer 1) (connectionBurst 2) s ∧
      Transition.Along Sys.step AcceptWorks (Config.plain .tcpServer 1).started (connectionBurst 2) ∧ ¬ s.AllAccepted := by
  obtain ⟨s,run,lost⟩ := run_reaches (.plain .tcpServer 1) (connectionBurst 2) (fun s => ¬ s.AllAccepted) (by decide +kernel)
  exact ⟨s,run,by decide +kernel,lost⟩

end Sys

end LightServer
