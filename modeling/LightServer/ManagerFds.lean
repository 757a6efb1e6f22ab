import LightServer.ExitSignal
import LightServer.Lifecycle
import LightServer.ListenSocket
import LightServer.OwnedSockets
import LightServer.RemovalRace

/-! The fds of the manager: while the worker runs, no operation on a socket closes one of them or takes it
out of the epoll set, so that it can always be woken. -/
namespace LightServer

namespace Host

variable {h h' next : Host} {fd : FD}

/-- The fd stays open and registered as it is, and no event of the listening socket comes up. -/
structure Spares (fd : FD) (h h' : Host) : Prop where
  isOpen : h.isOpen fd = true → h'.isOpen fd = true
  interest : ∀ pv, h.interest fd = some pv → h'.interest fd = some pv
  listenReady : h'.listenReady = true → h.listenReady = true

namespace Spares

theorem of_same (isOpen : h'.isOpen = h.isOpen) (interest : h'.interest = h.interest) (listenReady : h'.listenReady = h.listenReady) :
    Spares fd h h' :=
  ⟨fun opened => isOpen ▸ opened,fun _ registered => interest ▸ registered,fun ready => listenReady ▸ ready⟩

theorem refl (h : Host) : Spares fd h h := of_same rfl rfl rfl

theorem trans (first : Spares fd h h') (second : Spares fd h' next) : Spares fd h next :=
  ⟨second.isOpen ∘ first.isOpen,fun pv registered => second.interest pv (first.interest pv registered),
    first.listenReady ∘ second.listenReady⟩

theorem of_calm (calm : Calm h h') : Spares fd h h' := of_same calm.isOpen calm.interest calm.listenReady

theorem deleteFD {sock : FD} (other : sock ≠ fd) (h : Host) : Spares fd h (h.deleteFD sock) :=
  ⟨id,fun pv registered => by simpa [Host.deleteFD,Ne.symm other] using registered,id⟩

theorem closeFD {sock : FD} (other : sock ≠ fd) (h : Host) : Spares fd h (h.closeFD sock) := by
  unfold Host.closeFD
  split
  · refine ⟨fun opened => ?_,fun pv registered => ?_,fun ready => ?_⟩
    · simpa [Ne.symm other] using opened
    · simpa [Ne.symm other] using registered
    · dsimp only at ready
      split at ready
      · contradiction
      · exact ready
  · exact refl h

theorem openFD (sock : FD) (h : Host) : Spares fd h (h.openFD sock) := by
  refine ⟨fun opened => ?_,fun _ => id,id⟩
  by_cases same : fd = sock
  · simp [Host.openFD,same]
  · simpa [Host.openFD,same] using opened

/-- An fd that is registered is not registered again. -/
theorem addFD (sock : FD) (pv : PVOID) (refused : Bool) (h : Host) : Spares fd h (h.addFD sock pv refused).2 := by
  unfold Host.addFD
  split
  · exact refl h
  · rename_i allowed
    refine ⟨id,fun held registered => ?_,id⟩
    have other : fd ≠ sock := by
      rintro rfl
      simp [registered] at allowed
    simpa [other] using registered

theorem prepareObject (raw : SocketObject) (addr : Option Sockaddr) (connected : Option UInt32) (h : Host) :
    Spares fd h (h.prepareObject raw addr connected).2 := by
  cases addr <;> cases connected <;> exact of_same rfl rfl rfl

theorem addTcpSocket (sock : SOCKET) (addr : Sockaddr) (raw : SocketObject) (now : UInt32) (refused : Bool) (h : Host) :
    Spares fd h (h.addTcpSocket sock addr raw now refused).2.2 :=
  h.addTcpSocket_rule sock addr raw now refused (refl h) (prepareObject raw (some addr) (some now) h)
    (fun _ _ kept => kept.trans (of_same rfl rfl rfl)) (fun host p kept => kept.trans (addFD sock (.object p) refused host))

end Spares

theorem startAccept_listens (refused : Bool) (ready : (Sys.startAccept refused h).listenReady = true) :
    h.listenReady = true ∨ (Sys.startAccept refused h).isListening := by
  unfold Sys.startAccept Host.addFD at ready ⊢
  by_cases kept : (refused || !h.hasStart || !h.isOpen h.listenSocket || (h.interest h.listenSocket).isSome) = true
  · simp only [kept,if_true,Bool.false_eq_true,if_false] at ready
    exact .inl ready
  · simp [kept,isListening]

end Host

namespace Sys

open Host

/-- The fd that a step of a working process closes or takes out of the epoll set. -/
def drops (s : Sys) (act : Act) : Option FD :=
  match act with
  | .worker =>
    match s.worker with
    | .closeAccepted sock _ | .remove .deleteFD _ sock _ _ | .remove .close _ sock _ _ => some sock
    | _ => none
  | .caller t _ =>
    match s.callers[t]? with
    | some (.closeSock sock) => some sock
    | some (.stop .closeListenSocket) => some s.host.listenSocket
    | _ => none
  | _ => none

private theorem Move.spares {s : Sys} {h' : Host} {w' : Worker} {act : Act} {fd : FD} (move : Move s.host s.worker act h' w')
    (kept : s.drops act ≠ some fd) : Spares fd s.host h' := by
  have other {sock : FD} (drops : s.drops act = some sock) : sock ≠ fd := fun same => kept (drops.trans (congrArg some same))
  generalize at_w : s.worker = w at move
  cases move with
  | delivered fds batch found filled none_left => exact ⟨id,fun _ => id,fun ready => ((Bool.and_eq_true _ _).mp ready).1⟩
  | closeAccepted sock ctx => exact .closeFD (other (by simp [drops,at_w])) s.host
  | removeFD p sock count b => exact .deleteFD (other (by simp [drops,at_w])) s.host
  | removeClose p sock count b => exact .closeFD (other (by simp [drops,at_w])) s.host
  | timer exp now b => exact .of_calm (onTimer_calm exp now s.host)
  | clientRefused p events ctx soError now kind refused => exact .of_calm (onBeforeProcessIo_refused refused)
  | clientIo p events ctx soError now kind passed =>
    obtain ⟨object,_,_,⟨_,result⟩ | ⟨_,result⟩⟩ := onBeforeProcessIo_accepted passed
    · exact .of_same (by rw [result]) (by rw [result]) (by rw [result])
    · exact .of_same (by rw [result]; rfl) (by rw [result]; rfl) (by rw [result]; rfl)
  | accepted sock addr ctx conn rest listening waiting nonneg unused =>
    have waiting : Spares fd s.host {s.host with backlog := rest} := .of_same rfl rfl rfl
    exact waiting.trans (.openFD sock _)
  | added sock addr ctx raw now refused ok => exact .addTcpSocket sock addr raw now refused s.host
  | notAdded sock addr ctx raw now refused failed => exact .addTcpSocket sock addr raw now refused s.host
  | readStarted p events ctx now sock next started => exact .of_calm (startReceive_calm started).1
  | readOn p sock events ctx rc addr timeMs fits again =>
    obtain ⟨mid,buf,from_addr,calm,result⟩ := handleReceive_again again
    rw [result]
    exact (Spares.of_calm calm).trans (.of_same rfl rfl rfl)
  | readDone p sock events ctx rc addr timeMs rs fits done => exact .of_calm (handleReceive_done done)
  | written p ctx packet count front left fits =>
    obtain ⟨addr,sent⟩ := s.host.handleSend_ok p packet count
    rw [sent]
    exact .of_same rfl rfl rfl
  | _ => exact .of_same rfl rfl rfl

/-- The ends of `Stop` are reached when the worker has exited. -/
private theorem CallStep.spares {h h' : Host} {w : Worker} {c c' : Caller} {reply : Reply} (call : CallStep h w c reply h' c') {fd : FD}
    (working : c.joined = false) (closes : ∀ sock, c = .closeSock sock → sock ≠ fd)
    (listens : c = .stop .closeListenSocket → h.listenSocket ≠ fd) : Spares fd h h' := by
  cases call with
  | evtWrite next =>
    unfold Host.writeCmdEvt
    split <;> exact .of_same rfl rfl rfl
  | socket op addr sock nonneg unused => exact .openFD sock h
  | connected op addr sock raw now from_addr => exact .prepareObject raw from_addr (some now) h
  | inProgress addr sock raw => exact .prepareObject raw (some addr) none h
  | addFD sock p notify reply refused => exact .addFD sock (.object p) refused h
  | closeSock sock => exact .closeFD (closes sock rfl) h
  | closeListenSocket => exact .closeFD (listens rfl) h
  | release => simp [Caller.joined] at working
  | closeFds => simp [Caller.joined] at working
  | _ => exact .of_same rfl rfl rfl

/-- An event of the listening socket comes up where it is registered. -/
theorem step_spares {s next : Sys} {act : Act} {fd : FD} (taken : s.step act = some next) (control : Control s)
    (working : s.worker ≠ .exited) (kept : s.drops act ≠ some fd) :
    (s.host.isOpen fd = true → next.host.isOpen fd = true) ∧ (∀ pv, s.host.interest fd = some pv → next.host.interest fd = some pv) ∧
      (next.host.listenReady = true → s.host.listenReady = true ∨ s.host.kind = .tcpServer ∧ next.host.isListening) := by
  have spared (spares : Spares fd s.host next.host) : _ ∧ _ ∧ (_ → _ ∨ s.host.kind = .tcpServer ∧ next.host.isListening) :=
    ⟨spares.isOpen,spares.interest,fun ready => .inl (spares.listenReady ready)⟩
  cases step_taken taken with
  | arrive conn kind listening =>
    refine ⟨id,fun _ => id,fun ready => ?_⟩
    simpa [arrive,isListening,kind] using ready
  | startAccept refused kind =>
    have added : Spares fd s.host (s.host.addFD s.host.listenSocket .listenSocket refused).2 := .addFD _ _ refused s.host
    refine ⟨fun opened => ?_,fun pv registered => ?_,fun ready => (startAccept_listens refused ready).imp_right (⟨kind,·⟩)⟩
    · unfold startAccept
      dsimp only
      split
      · exact added.isOpen opened
      · exact opened
    · unfold startAccept
      dsimp only
      split
      · exact added.interest pv registered
      · exact registered
  | caller t c reply host later found may call =>
    refine spared (call.spares ?_ (fun sock at_close same => ?_) (fun at_close same => ?_))
    · rw [Bool.eq_false_iff]
      exact fun joined => working (control.joined c (List.mem_of_getElem? found) joined)
    · simp [drops,found,at_close,same] at kept
    · simp [drops,found,at_close,same] at kept
  | worker act host worker idle move => exact spared (move.spares kept)
  | _ => exact spared (.of_same rfl rfl rfl)

/-- Of the fds that were open at the start, `TcpServer::Stop` closes the listening socket and no step closes another. -/
theorem drops_ours {config : Config} {acts : List Act} {s : Sys} (run : Run config acts s) (working : s.worker ≠ .exited) {act : Act}
    {fd : FD} (ours : config.isOpen fd = true) (drops : s.drops act = some fd) :
    config.kind = .tcpServer ∧ fd = s.host.listenSocket ∧ ∃ t reply, act = .caller t reply ∧
      s.callers[t]? = some (.stop .closeListenSocket) := by
  have inv := run_inv run
  have removed {stage : RemoveStage} {p : Ptr} (removing : s.worker.role = .removing stage p fd) : s.view.table.find fd ≠ none := by
    simp [inv.entered.removing stage p fd removing]
  -- who may have an fd that was not open: the worker or, in the other servers, a thread
  have away : s.view.table.find fd = none ∧ s.worker.role ≠ .holding fd ∧ (∀ c ∈ s.callers, c ≠ .closeSock fd) ∧
      (config.kind ≠ .tcpServer → ∀ c ∈ s.callers, c.progress ≠ 1) := by
    by_cases server : config.kind = .tcpServer
    · obtain ⟨missing,free,_⟩ := ((run_balance run server).accounted working).away fd ours
      refine ⟨missing,free,fun c member closing => ?_,fun other => absurd server other⟩
      exact connecting_kind run member (by simp [closing,Caller.task]) ((run_kind run).trans server)
    · have owns := run_owns run (by rwa [run_kind run]) working
      obtain ⟨_,missing,free⟩ := (run_spent run server working).theirs fd ours
      exact ⟨missing,owns.owned.serving.2 fd,fun c member closing => free ⟨c,member,by rw [closing,Caller.holds]⟩,fun _ => owns.listens⟩
  obtain ⟨missing,free,held,listens⟩ := away
  unfold Sys.drops at drops
  split at drops
  · split at drops
    · obtain rfl := Option.some.inj drops
      exact absurd (by rw [‹s.worker = _›,Worker.role]) free
    · obtain rfl := Option.some.inj drops
      exact absurd missing (removed (by rw [‹s.worker = _›,Worker.role]))
    · obtain rfl := Option.some.inj drops
      exact absurd missing (removed (by rw [‹s.worker = _›,Worker.role]))
    · cases drops
  · split at drops
    · rename_i at_t
      obtain rfl := Option.some.inj drops
      exact absurd rfl (held _ (List.mem_of_getElem? at_t))
    · rename_i t reply _ at_t
      refine ⟨?_,(Option.some.inj drops).symm,t,reply,rfl,at_t⟩
      by_contra other
      exact listens other _ (List.mem_of_getElem? at_t) rfl
    · cases drops
  · cases drops

/-- The manager of a working process. -/
structure Watching (config : Config) (s : Sys) : Prop where
  managed : s.host.managed = config.started.host.managed
  listenSocket : s.host.listenSocket = config.listenSocket
  watches : ∀ pv, IsEvt pv → config.started.host.evtFd pv ≠ invalidFd → s.host.Watches pv
  listening : s.host.listenReady = true → s.host.kind = .tcpServer ∧ s.host.isListening

theorem evtFd_managed {h h' : Host} (same : h'.managed = h.managed) {pv : PVOID} (evt : IsEvt pv) : h'.evtFd pv = h.evtFd pv := by
  simp only [Host.managed,Prod.mk.injEq] at same
  rcases evt with rfl | rfl | rfl
  · exact same.2.2.1
  · exact same.2.1
  · exact same.2.2.2

theorem started_watching (config : Config) : Watching config config.started := by
  refine ⟨rfl,rfl,fun pv evt valid => ⟨valid,?_⟩,by simp [Config.started]⟩
  have distinct := config.distinct
  simp only [List.nodup_cons,List.mem_cons,not_or] at distinct
  rcases evt with rfl | rfl | rfl
  · exact ⟨config.cmd_open.1,if_pos rfl⟩
  · refine ⟨config.exit_open.1,?_⟩
    simp [Config.started,Config.interest,Host.evtFd,distinct.1.2.1.1]
  · refine ⟨config.timer_open valid,?_⟩
    have other : config.timerEvtFd ≠ config.cmdEvtFd ∧ config.timerEvtFd ≠ config.exitEvtFd := ⟨distinct.2.2.2.1,distinct.2.2.1⟩
    have valid : config.timerEvtFd ≠ invalidFd := valid
    simp [Config.started,Config.interest,Host.evtFd,other,valid]

theorem evtFd_ours {config : Config} {pv : PVOID} (evt : IsEvt pv) (valid : config.started.host.evtFd pv ≠ invalidFd) :
    config.isOpen (config.started.host.evtFd pv) = true ∧ config.started.host.evtFd pv ≠ config.listenSocket := by
  have distinct := config.distinct
  simp only [List.nodup_cons,List.mem_cons,List.not_mem_nil,or_false,not_or] at distinct
  rcases evt with rfl | rfl | rfl
  · exact ⟨config.cmd_open.1,distinct.1.2.2.1⟩
  · exact ⟨config.exit_open.1,distinct.1.2.1.2⟩
  · exact ⟨config.timer_open valid,config.timer_distinct valid⟩

theorem Watching.step {config : Config} {acts : List Act} {s next : Sys} {act : Act} (watching : Watching config s)
    (run : Run config acts s) (working : s.worker ≠ .exited) (taken : s.step act = some next) : Watching config next := by
  obtain ⟨managed,listenSocket,watches,listening⟩ := watching
  have control := (run_inv run).control
  have same : next.host.managed = s.host.managed := by
    rcases managed_step taken with same | ⟨_,t,at_t,_⟩
    · exact same
    · exact absurd (control.joined _ (List.mem_of_getElem? at_t) rfl) working
  refine ⟨same.trans managed,(listenSocket_step taken).trans listenSocket,fun pv evt valid => ?_,fun ready => ?_⟩
  · obtain ⟨ours,other⟩ := evtFd_ours evt valid
    have member : s.host.evtFd pv = config.started.host.evtFd pv := evtFd_managed managed evt
    have kept : s.drops act ≠ some (s.host.evtFd pv) := by
      intro drops
      obtain ⟨_,named,_⟩ := drops_ours run working (member ▸ ours) drops
      exact other (member.symm.trans (named.trans listenSocket))
    obtain ⟨opened,registered,_⟩ := step_spares taken control working kept
    obtain ⟨_,before,interest⟩ := watches pv evt valid
    rw [Host.Watches,evtFd_managed same evt]
    exact ⟨member ▸ valid,opened before,registered pv interest⟩
  · have kind : s.host.kind = config.kind := run_kind run
    have later : next.host.kind = config.kind := run_kind (run_snoc run taken)
    have named : next.host.listenSocket = s.host.listenSocket := listenSocket_step taken
    by_cases kept : s.drops act = some s.host.listenSocket
    · have other : s.drops act ≠ some config.cmdEvtFd := by
        rw [kept,listenSocket]
        exact fun same => (evtFd_ours (.inl rfl) config.cmd_open.2).2 (Option.some.inj same).symm
      rcases (step_spares taken control working other).2.2 ready with before | ⟨server,listens⟩
      · obtain ⟨server,listens⟩ := listening before
        refine ⟨later.trans (kind.symm.trans server),?_⟩
        have ours : config.isOpen s.host.listenSocket = true := listenSocket ▸ (config.listen_open (kind.symm.trans server)).1
        obtain ⟨_,_,t,reply,rfl,at_t⟩ := drops_ours run working ours kept
        cases step_taken taken with
        | caller t c reply host later found may call =>
          obtain rfl := Option.some.inj (at_t.symm.trans found)
          cases call with
          | closeListenSocket =>
            -- an event of a socket that is closed is gone with it
            by_cases opened : s.host.isOpen s.host.listenSocket = true
            · simp [setCaller,Host.closeFD,opened] at ready
            · simpa [setCaller,Host.closeFD,opened] using listens
        | sendRefused act sends => simp [message] at sends
        | sent act t sock addr raw buf p object sends kind idle found live valid room => simp [message] at sends
        | worker act host worker idle move =>
          generalize s.worker = w at move
          cases move
      · exact ⟨later.trans (kind.symm.trans server),listens⟩
    · obtain ⟨_,registered,raised⟩ := step_spares taken control working kept
      rcases raised ready with before | ⟨server,listens⟩
      · obtain ⟨server,listens⟩ := listening before
        exact ⟨later.trans (kind.symm.trans server),by rw [Host.isListening,named]; exact registered _ listens⟩
      · exact ⟨later.trans (kind.symm.trans server),listens⟩

theorem run_watching {config : Config} {acts : List Act} {s : Sys} (run : Run config acts s) (working : s.worker ≠ .exited) :
    Watching config s := by
  refine Transition.exec_induction (I := fun _ s => s.worker ≠ .exited → Watching config s) (fun _ => started_watching config)
    (fun acts s act next run watching taken working => ?_) run working
  have before := step_working taken working
  exact (watching before).step run before taken

/-- While the worker runs, no thread and no order of steps takes the command, exit or timer fd from it: it is
the one that `Start` created, open and registered for its event. -/
theorem manager_fds_watched {config : Config} {acts : List Act} {s : Sys} (run : Run config acts s) (working : s.worker ≠ .exited)
    {pv : PVOID} (evt : IsEvt pv) (valid : config.started.host.evtFd pv ≠ invalidFd) :
    s.host.evtFd pv = config.started.host.evtFd pv ∧ s.host.Watches pv := by
  have watching := run_watching run working
  exact ⟨evtFd_managed watching.managed evt,watching.watches pv evt valid⟩

theorem stop_exitFd_watched : ∃ s, Run (.plain .tcpServer 2) stopSignalled s ∧ s.host.evtFd .exitEvtFd = 6 ∧
    s.host.Watches .exitEvtFd := by
  obtain ⟨s,run,working⟩ : ∃ s, Run (.plain .tcpServer 2) stopSignalled s ∧ s.worker ≠ .exited := run_reaches _ _ _ (by decide +kernel)
  exact ⟨s,run,manager_fds_watched run working (.inr (.inl rfl)) (by decide)⟩

end Sys

end LightServer
