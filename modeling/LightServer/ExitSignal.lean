import LightServer.DoWork
import LightServer.StopSteps

/-! The exit event: `Stop` raises it, and the worker handles it in the first batch that has room for it
and does not wait again. -/
namespace LightServer

/-- The worker leaves its loop at the end of the batch, or has left it. -/
def Place.leaves : Place → Prop
  | .batch b | .commands _ b | .executing _ b => b.bRun = false ∨ ∃ ev ∈ b.rest, ev.ptr = .exitEvtFd
  | .wait => False
  | .exited => True

/-- A call of `Stop` that has raised the exit event and waits for the worker. -/
def Caller.signalled : Caller → Bool
  | .trigger _ _ next | .evtWrite next => next.signalled
  | .stop .join => true
  | _ => false

@[simp] theorem signalled_afterAdd (notify : Bool) (sock : SOCKET) (p : Ptr) : (Sys.afterAdd notify sock p).signalled = false := by
  cases notify <;> rfl

theorem Place.leaves_current {place : Place} {b : Batch} (current : place.current = some b) :
    place.leaves ↔ b.bRun = false ∨ ∃ ev ∈ b.rest, ev.ptr = .exitEvtFd := by
  cases place with
  | wait => simp [Place.current] at current
  | exited => simp [Place.current] at current
  | _ =>
    obtain rfl := Option.some.inj current
    rfl

namespace Host

variable (h : Host)

/-- What `epoll_pwait` knows of the exit event, and the size of its array. -/
def waits (h : Host) : Bool × Nat := (h.exitReady,h.maxEvents)

@[simp] theorem waits_observe (obs : Obs) : (h.observe obs).waits = h.waits := rfl

@[simp] theorem waits_modify (p : Ptr) (change : SocketObject → SocketObject) : (h.modify p change).waits = h.waits := rfl

@[simp] theorem waits_openFD (fd : FD) : (h.openFD fd).waits = h.waits := rfl

@[simp] theorem waits_closeFD (fd : FD) : (h.closeFD fd).waits = h.waits := by
  unfold closeFD
  split <;> rfl

@[simp] theorem waits_addFD (fd : FD) (pv : PVOID) (refused : Bool) : (h.addFD fd pv refused).2.waits = h.waits := by
  unfold addFD
  split <;> rfl

@[simp] theorem waits_insertSocketObject (sock : SOCKET) (p : Ptr) : (h.insertSocketObject sock p).waits = h.waits := rfl

@[simp] theorem waits_prepareObject (raw : SocketObject) (addr : Option Sockaddr) (connected : Option UInt32) :
    (h.prepareObject raw addr connected).2.waits = h.waits := by
  cases addr <;> cases connected <;> rfl

@[simp] theorem waits_addTcpSocket (sock : SOCKET) (addr : Sockaddr) (raw : SocketObject) (now : UInt32) (refused : Bool) :
    (h.addTcpSocket sock addr raw now refused).2.2.waits = h.waits :=
  h.addTcpSocket_rule sock addr raw now refused (P := fun host => host.waits = h.waits) rfl (by simp) (by simp) (by simp)

@[simp] theorem waits_triggerCmdEvent (cmd : EvtCommand) (fd : FD) : (h.triggerCmdEvent cmd fd).waits = h.waits := by
  unfold triggerCmdEvent writeCmdEvt
  split
  · split <;> rfl
  · rfl

@[simp] theorem waits_countReceived (limiter : Limiter) (p : Ptr) (rc : Nat) (timeMs : UInt64) :
    (h.countReceived limiter p rc timeMs).waits = h.waits := by
  unfold countReceived
  split
  · split <;> rfl
  · rfl

@[simp] theorem waits_closeSocket (sock : SOCKET) : (h.closeSocket sock).waits = h.waits := h.waits_triggerCmdEvent .disconnect sock

theorem waits_receiveIteration (limiter : Limiter) (addr : Option Sockaddr) (p : Ptr) (sock : SOCKET) (rc : Except Errno (List UInt8))
    (timeMs : UInt64) : (h.receiveIteration limiter addr p sock rc timeMs).1.waits = h.waits := by
  cases rc with
  | error code => by_cases again : code = ewouldblock <;> simp [receiveIteration,again]
  | ok buf =>
    cases buf with
    | nil => simp [receiveIteration]
    | cons byte bytes =>
      simp only [receiveIteration]
      split
      · rw [waits_countReceived]
        rfl
      · rw [waits_observe,waits_countReceived]
        rfl

@[simp] theorem waits_handleReceive (p : Ptr) (sock : SOCKET) (addr : Sockaddr) (rc : Except Errno (List UInt8)) (timeMs : UInt64) :
    (h.handleReceive p sock addr rc timeMs).1.waits = h.waits := by
  unfold handleReceive
  cases h.kind with
  | tcpServer => exact h.waits_receiveIteration none none p sock rc timeMs
  | tcpClient => exact h.waits_receiveIteration TcpClient.limiter none p sock rc timeMs
  | udpServer => exact h.waits_receiveIteration UdpServer.limiter (some addr) p sock rc timeMs

@[simp] theorem waits_onTimer (exp : UInt64) (now : UInt32) : (h.onTimer exp now).waits = h.waits := by
  have swept (period : UInt64) (host : Host) (same : host.waits = h.waits) :
      (host.disconnectSilenceConnections period now).waits = h.waits :=
    host.disconnectSilence_rule period now (P := fun host => host.waits = h.waits) same
      (fun other sock kept => (other.waits_triggerCmdEvent .disconnect sock).trans kept)
  unfold onTimer
  split
  · simp only [TcpClient.onTimer]
    split
    · exact swept _ _ rfl
    · rfl
  · rfl
  · rfl

@[simp] theorem waits_onBeforeProcessIo (p : Ptr) (soError : Except Errno Int) (now : UInt32) :
    (TcpClient.onBeforeProcessIo p soError now h).1.waits = h.waits := by
  unfold TcpClient.onBeforeProcessIo
  split
  · rfl
  · split
    · rfl
    · split
      · rfl
      · split
        · simp
        · split <;> simp

theorem waits_releaseSocketObjects : h.releaseSocketObjects.waits = h.waits := by
  obtain ⟨host,kept,same⟩ := h.releaseSocketObjects_rule (P := fun host => host.waits = h.waits) rfl (fun _ _ _ => id)
  exact (congrArg waits same).trans kept

theorem exitReady_closeManagerFds : h.closeManagerFds.exitReady = h.exitReady :=
  h.closeManagerFds_rule (P := fun host => host.exitReady = h.exitReady) rfl (fun _ _ => id)
    (fun host fd kept => (congrArg Prod.fst (host.waits_closeFD fd)).trans kept) (fun _ => id)

theorem waits_startAccept (refused : Bool) : (Sys.startAccept refused h).waits = h.waits := by
  simp only [Sys.startAccept]
  split
  · exact h.waits_addFD h.listenSocket .listenSocket refused
  · rfl

end Host

namespace Sys

/-- Apart from the return of `epoll_pwait`, the worker leaves the exit event alone. -/
theorem Move.waits {h h' : Host} {w w' : Worker} {act : Act} (move : Move h w act h' w') :
    h'.waits = h.waits ∨ ∃ fds batch, act = .epollPwait (.ok fds) ∧ w = .epollPwait ∧ deliver h fds = some batch ∧
      batch.length ≤ h.maxEvents ∧ leavesNone h batch = true ∧ h' = clearReady batch h ∧ w' = .batch ⟨true,batch⟩ := by
  cases move with
  | delivered fds batch found filled none_left => exact .inr ⟨fds,batch,rfl,rfl,found,filled,none_left,rfl,rfl⟩
  | readStarted p events ctx now sock next started =>
    obtain ⟨_,_,_,_,rfl⟩ := Host.startReceive_eq started
    exact .inl rfl
  | written p ctx packet count front left fits =>
    obtain ⟨addr,sent⟩ := h.handleSend_ok p packet count
    exact .inl (by rw [sent]; rfl)
  | _ => exact .inl (by first | rfl | simp)

/-- A caller leaves the exit event alone, raises it, or closes its fd at the end of `Stop`. -/
theorem CallStep.waits {h h' : Host} {w : Worker} {c c' : Caller} {reply : Reply} (call : CallStep h w c reply h' c') :
    h'.waits = h.waits ∨ (c = .stop .signal ∧ c' = .stop .join ∧ h' = h.writeExitEvt) ∨
      c = .stop .closeFds ∧ h'.waits = (h.exitReady,6) := by
  cases call with
  | signal => exact .inr (.inl ⟨rfl,rfl,rfl⟩)
  | evtWrite next =>
    left
    unfold Host.writeCmdEvt
    split <;> rfl
  | release => exact .inl h.waits_releaseSocketObjects
  | closeFds => exact .inr (.inr ⟨rfl,Prod.ext h.exitReady_closeManagerFds rfl⟩)
  | _ => exact .inl (by first | rfl | simp)

theorem maxEvents_step {s next : Sys} {act : Act} (taken : s.step act = some next) (six : s.host.maxEvents = 6) :
    next.host.maxEvents = 6 := by
  have kept {host : Host} (same : host.waits = s.host.waits) : host.maxEvents = 6 := (congrArg Prod.snd same).trans six
  cases step_taken taken with
  | startAccept refused kind => exact kept (s.host.waits_startAccept refused)
  | caller t c reply host later found may call =>
    rcases call.waits with same | ⟨_,_,rfl⟩ | ⟨_,closed⟩
    · exact kept same
    · exact six
    · exact congrArg Prod.snd closed
  | worker act host worker idle move =>
    rcases move.waits with same | ⟨fds,batch,_,_,_,_,_,rfl,_⟩
    · exact kept same
    · exact six
  | _ => exact six

theorem run_maxEvents {config : Config} {acts : List Act} {s : Sys} (run : Run config acts s) : s.host.maxEvents = 6 :=
  Transition.exec_invariant_free (I := fun s : Sys => s.host.maxEvents = 6) (fun _ _ _ six taken => maxEvents_step taken six) rfl run

theorem Move.still_leaves {h h' : Host} {w w' : Worker} {act : Act} (move : Move h w act h' w') (leaves : w.place.leaves) :
    w'.place.leaves := by
  rcases move.loop with ⟨rfl,_⟩ | ⟨rfl,_⟩ | ⟨bRun,rfl,rfl,rfl⟩ | ⟨bRun,ev,rest,rfl,rfl,current⟩ | ⟨_,_,_,current⟩
  · exact absurd leaves (by simp [Worker.place,Place.leaves])
  · exact absurd leaves (by simp [Worker.place,Place.leaves])
  · have stopped : bRun = false := by simpa [Worker.place,Place.leaves] using leaves
    simp [stopped,Worker.place,Place.leaves]
  · rw [Place.leaves_current current]
    simp only [Worker.place,Place.leaves,List.mem_cons,exists_eq_or_imp] at leaves
    rcases leaves with stopped | exit | later
    · left
      subst stopped
      cases ptr : ev.ptr <;> simp [dispatchRound,handlerOf,ptr,processExit]
    · left
      simp [dispatchRound,handlerOf,exit,processExit]
    · exact .inr later
  · cases before : w.place.current with
    | some b =>
      rw [Place.leaves_current before] at leaves
      exact (Place.leaves_current (current.trans before)).mpr leaves
    | none =>
      cases place : w.place with
      | exited => exact absurd (place_exited.mp place) ‹_›
      | wait => exact absurd (place_wait.mp place) ‹_›
      | _ => simp [place,Place.current] at before

theorem leaves_step {s next : Sys} {act : Act} (taken : s.step act = some next) (leaves : s.worker.place.leaves) :
    next.worker.place.leaves := by
  cases step_taken taken with
  | worker act host worker idle move => exact move.still_leaves leaves
  | _ => exact leaves

/-- The worker has still to be told to stop, leaves its loop, or has left it. -/
def ExitDue (s : Sys) : Prop := s.worker.place.leaves ∨ s.host.exitReady = true

theorem ExitDue.step {s next : Sys} {act : Act} (due : s.ExitDue) (taken : s.step act = some next) : next.ExitDue := by
  have ready {host : Host} (same : host.waits = s.host.waits) (ready : s.host.exitReady = true) : host.exitReady = true :=
    (congrArg Prod.fst same).trans ready
  rcases due with leaves | raised
  · exact .inl (leaves_step taken leaves)
  · cases step_taken taken with
    | startAccept refused kind => exact .inr (ready (s.host.waits_startAccept refused) raised)
    | caller t c reply host later found may call =>
      rcases call.waits with same | ⟨_,_,rfl⟩ | ⟨_,closed⟩
      · exact .inr (ready same raised)
      · exact .inr rfl
      · exact .inr ((congrArg Prod.fst closed).trans raised)
    | worker act host worker idle move =>
      rcases move.waits with same | ⟨fds,batch,rfl,_,_,_,_,rfl,rfl⟩
      · exact .inr (ready same raised)
      · by_cases told : batch.any (fun ev => ev.ptr = .exitEvtFd) = true
        · left
          simpa [moveTo,Worker.place,Place.leaves] using told
        · right
          simp [moveTo,clearReady,raised,told]
    | _ => exact .inr raised

theorem CallStep.signals {h h' : Host} {w : Worker} {c c' : Caller} {reply : Reply} (call : CallStep h w c reply h' c')
    (later : c'.signalled = true) : c.signalled = true ∨ h' = h.writeExitEvt := by
  cases call with
  | signal => exact .inr rfl
  | _ => simp_all [Caller.signalled]

theorem run_exitDue {config : Config} {acts : List Act} {s : Sys} (run : Run config acts s) {c : Caller} (member : c ∈ s.callers)
    (signalled : c.signalled = true) : s.ExitDue := by
  have kept (s : Sys) (act : Act) (next : Sys) (due : ∀ c ∈ s.callers, c.signalled = true → s.ExitDue)
      (taken : s.step act = some next) : ∀ c ∈ next.callers, c.signalled = true → next.ExitDue := by
    intro c member signalled
    have entered {t : Nat} {c' : Caller} (quiet : c'.signalled = false) (member : c ∈ s.callers.set t c') : next.ExitDue := by
      rcases List.mem_or_eq_of_mem_set member with old | rfl
      · exact (due c old signalled).step taken
      · simp [quiet] at signalled
    cases step_taken taken with
    | caller t d reply host later found may call =>
      rcases List.mem_or_eq_of_mem_set member with old | rfl
      · exact (due c old signalled).step taken
      · rcases call.signals signalled with before | rfl
        · exact (due d (List.mem_of_getElem? found) before).step taken
        · exact .inr rfl
    | sent act t sock addr raw buf p object sends kind idle found live valid room => exact entered rfl member
    | disconnect t sock idle => exact entered rfl member
    | connect t op addr idle offered => exact entered rfl member
    | stop t idle outside first => exact entered (by cases s.host.kind <;> rfl) member
    | _ => exact (due c member signalled).step taken
  refine Transition.exec_invariant_free kept (fun c member signalled => ?_) run c member signalled
  simp only [Config.started,List.mem_replicate] at member
  simp [member.2,Caller.signalled] at signalled

theorem deliver_length {h : Host} {fds : List (FD × UInt32)} {batch : List EpollEvent} (found : deliver h fds = some batch) :
    batch.length = fds.length := by
  induction fds generalizing batch with
  | nil =>
    obtain rfl : [] = batch := Option.some.inj found
    rfl
  | cons fd fds ih =>
    simp only [deliver,List.mapM_cons,Option.bind_eq_bind,Option.bind_eq_some_iff] at found
    obtain ⟨first,_,rest,later,same⟩ := found
    obtain rfl : first::rest = batch := Option.some.inj same
    rw [List.length_cons,List.length_cons,ih later]

/-- Once `Stop` has raised the exit event, a batch with room for it has it, and the worker waits no more after that
batch: its end is the end of the loop. -/
theorem exit_heeded {config : Config} {acts later : List Act} {s next final : Sys} {fds : List (FD × UInt32)} (run : Run config acts s)
    (signalled : .stop .join ∈ s.callers) (taken : s.step (.epollPwait (.ok fds)) = some next) (room : fds.length < s.host.maxEvents)
    (goes_on : Transition.exec Sys.step next later = some final) :
    (∃ b, next.worker = .batch b ∧ ∃ ev ∈ b.rest, ev.ptr = .exitEvtFd) ∧ final.worker ≠ .epollPwait := by
  have delivers : ∃ b, next.worker = .batch b ∧ ∃ ev ∈ b.rest, ev.ptr = .exitEvtFd := by
    cases step_taken taken with
    | worker act host worker idle move =>
      obtain ⟨at_wait,batch,found,none_left,rfl⟩ : s.worker = .epollPwait ∧ ∃ batch, deliver s.host fds = some batch ∧
          leavesNone s.host batch = true ∧ worker = .batch ⟨true,batch⟩ := by
        generalize at_w : s.worker = w at move
        cases move with
        | delivered fds batch found filled none_left => exact ⟨rfl,batch,found,none_left,rfl⟩
      have ready : s.host.exitReady = true := by
        refine (run_exitDue run signalled rfl).resolve_left ?_
        simp [at_wait,Worker.place,Place.leaves]
      have size : batch.length ≠ s.host.maxEvents := by
        have same := deliver_length found
        omega
      simp only [leavesNone,ready,Bool.or_eq_true,decide_eq_true_eq,size,false_or,Bool.and_eq_true,Bool.not_true,Bool.false_eq_true,
        List.any_eq_true] at none_left
      exact ⟨⟨true,batch⟩,rfl,none_left.1.2⟩
    | sendRefused act sends => simp [message] at sends
    | sent act t sock addr raw buf p object sends kind idle found live valid room => simp [message] at sends
  refine ⟨delivers,fun waits => ?_⟩
  obtain ⟨b,at_batch,event⟩ := delivers
  have leaves : next.worker.place.leaves := by
    rw [at_batch]
    exact .inr event
  have stays := Transition.exec_invariant_free (fun _ _ _ leaves taken => leaves_step taken leaves) leaves goes_on
  simp [waits,Worker.place,Place.leaves] at stays

/-- `Stop` finds a connection, so there is a command in the batch with the exit event. -/
def stopSignalled : List Act :=
  connectionBurst 1 ++ [.stop 1] ++ List.replicate 6 (.caller 1 .done)

theorem burst_exit_heeded : ∃ s next final, Run (.plain .tcpServer 2) stopSignalled s ∧
    s.step (.epollPwait (.ok [(5,epollin),(6,epollin)])) = some next ∧
    Transition.exec Sys.step next [.worker,.worker,.worker] = some final ∧
    (∃ b, next.worker = .batch b ∧ ∃ ev ∈ b.rest, ev.ptr = .exitEvtFd) ∧ final.worker ≠ .epollPwait := by
  obtain ⟨s,run,signalled,room,goes_on⟩ : ∃ s, Run (.plain .tcpServer 2) stopSignalled s ∧ .stop .join ∈ s.callers ∧
      [((5 : FD),epollin),(6,epollin)].length < s.host.maxEvents ∧
      ((s.step (.epollPwait (.ok [(5,epollin),(6,epollin)]))).bind
        (fun next => Transition.exec Sys.step next [.worker,.worker,.worker])).isSome = true :=
    run_reaches _ _ _ (by decide +kernel)
  obtain ⟨final,goes_on⟩ := Option.isSome_iff_exists.mp goes_on
  obtain ⟨next,taken,goes_on⟩ := Option.bind_eq_some_iff.mp goes_on
  exact ⟨s,next,final,run,taken,goes_on,exit_heeded run signalled taken room goes_on⟩

end Sys

end LightServer
