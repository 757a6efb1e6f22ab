import LightServer.Frame

/-! The worker seen from the command queue: where it is in `DoWork` and
`ProcessCommand`, and what its steps do to the queue. -/
namespace LightServer

inductive Place
  | wait
  | batch (b : Batch)
  | commands (count : Nat) (b : Batch)
  | executing (count : Nat) (b : Batch)
  | exited

/-- The events still to be dispatched. -/
def Place.rest : Place → List EpollEvent
  | .batch b | .commands _ b | .executing _ b => b.rest
  | .wait | .exited => []

def Ctx.place : Ctx → Place
  | .batch b => .batch b
  | .command count b => .executing count b

def Worker.place : Worker → Place
  | .epollPwait => .wait
  | .batch b | .timer b => .batch b
  | .command count b => .commands count b
  | .popCommand count b | .remove _ _ _ count b => .executing count b
  | .beforeIo _ _ ctx | .accept ctx | .setNonBlocking _ _ ctx | .addTcpSocket _ _ ctx | .closeAccepted _ ctx
  | .connected _ _ ctx | .readyRead _ _ ctx | .read _ _ _ ctx | .readyWrite _ ctx | .sendLoop _ ctx
  | .sendPacket _ ctx | .popPacket _ ctx => ctx.place
  | .exited => .exited

@[simp] theorem place_resume (ctx : Ctx) : (resume ctx).place = ctx.place := by cases ctx <;> rfl

@[simp] theorem place_afterRead (rs : Bool) (p : Ptr) (events : UInt32) (ctx : Ctx) :
    (afterRead rs p events ctx).place = ctx.place :=
  afterRead_rule (P := fun w => w.place = ctx.place) rfl (place_resume ctx) rs events

@[simp] theorem place_doProcessIo (p : Ptr) (events : UInt32) (ctx : Ctx) : (doProcessIo p events ctx).place = ctx.place :=
  doProcessIo_rule (P := fun w => w.place = ctx.place) rfl rfl (place_resume ctx)

theorem place_exited {worker : Worker} : worker.place = .exited ↔ worker = .exited := by
  constructor
  · cases worker <;> simp only [Worker.place,reduceCtorEq,imp_self] <;>
      (rename_i ctx; cases ctx <;> simp [Ctx.place])
  · rintro rfl
    rfl

namespace Host

/-- What `TriggerCmdEvent` and the worker read and write. -/
def control (h : Host) : List TSockMCommand × Bool × FD × FD := (h.cmdQueue,h.cmdReady,h.cmdEvtFd,h.epollFd)

section control

variable (h : Host)

@[simp] theorem control_observe (obs : Obs) : (h.observe obs).control = h.control := rfl

@[simp] theorem control_modify (p : Ptr) (change : SocketObject → SocketObject) : (h.modify p change).control = h.control := rfl

@[simp] theorem control_deleteObject (p : Ptr) : (h.deleteObject p).control = h.control := rfl

@[simp] theorem control_deleteFD (fd : FD) : (h.deleteFD fd).control = h.control := rfl

@[simp] theorem control_openFD (fd : FD) : (h.openFD fd).control = h.control := rfl

@[simp] theorem control_eraseSocket (sock : SOCKET) : (h.eraseSocket sock).control = h.control := rfl

@[simp] theorem control_insertSocketObject (sock : SOCKET) (p : Ptr) : (h.insertSocketObject sock p).control = h.control := rfl

@[simp] theorem control_closeFD (fd : FD) : (h.closeFD fd).control = h.control := by
  unfold closeFD
  split <;> rfl

@[simp] theorem control_addFD (fd : FD) (pv : PVOID) (refused : Bool) : (h.addFD fd pv refused).2.control = h.control := by
  unfold addFD
  split <;> rfl

@[simp] theorem control_startAccept (refused : Bool) : (Sys.startAccept refused h).control = h.control := by
  unfold Sys.startAccept
  dsimp only
  split
  · exact h.control_addFD h.listenSocket .listenSocket refused
  · rfl

@[simp] theorem control_prepareObject (raw : SocketObject) (addr : Option Sockaddr) (connected : Option UInt32) :
    (h.prepareObject raw addr connected).2.control = h.control := by
  cases addr <;> cases connected <;> rfl

@[simp] theorem control_addSocketObject (sock : SOCKET) (p : Ptr) (refused : Bool) :
    (h.addSocketObject sock p refused).2.control = h.control := by
  unfold addSocketObject
  split <;> simp

@[simp] theorem control_addTcpSocket (sock : SOCKET) (addr : Sockaddr) (raw : SocketObject) (now : UInt32) (refused : Bool) :
    (h.addTcpSocket sock addr raw now refused).2.2.control = h.control := by
  unfold addTcpSocket
  split <;> simp

@[simp] theorem control_releaseSocketObjects : h.releaseSocketObjects.control = h.control := by
  obtain ⟨host,kept,same⟩ := h.releaseSocketObjects_rule (P := fun host => host.control = h.control) rfl (fun _ _ _ => by simp)
  exact (congrArg control same).trans kept

@[simp] theorem cmdQueue_closeManagerFds : h.closeManagerFds.cmdQueue = h.cmdQueue :=
  h.closeManagerFds_rule (P := fun host => host.cmdQueue = h.cmdQueue) rfl (fun _ _ => id)
    (fun host fd kept => (congrArg Prod.fst (host.control_closeFD fd)).trans kept) (fun _ => id)

end control

/-- The part of a quiet change that concerns the commands. -/
structure Pushes (h h' : Host) : Prop where
  commands : ∃ added, h'.cmdQueue = h.cmdQueue ++ added ∧ (∀ cmd ∈ added, cmd.owner = h.findSocketObject cmd.fd) ∧
    (added ≠ [] → h.cmdEvtFd ≠ invalidFd → h'.cmdReady)
  cmdReady : h.cmdReady → h'.cmdReady
  cmdEvtFd : h'.cmdEvtFd = h.cmdEvtFd
  epollFd : h'.epollFd = h.epollFd

theorem Quiet.pushes {α β : Type} {view : SocketObject → α} {seen : Obs → Option β} {h h' : Host}
    (quiet : Quiet view seen h h') : Pushes h h' := ⟨quiet.commands,quiet.cmdReady,quiet.cmdEvtFd,quiet.epollFd⟩

theorem Pushes.none {h h' : Host} (same : h'.control = h.control) : Pushes h h' := by
  simp only [control,Prod.mk.injEq] at same
  obtain ⟨cmdQueue,cmdReady,cmdEvtFd,epollFd⟩ := same
  exact ⟨⟨[],by simp [cmdQueue],by simp,by simp⟩,fun ready => cmdReady ▸ ready,cmdEvtFd,epollFd⟩

end Host

namespace Sys

/-- What `epoll_pwait` reports is registered, and ready where readiness is modelled. -/
theorem deliver_mem {h : Host} {fds : List (FD × UInt32)} {batch : List EpollEvent} (found : deliver h fds = some batch)
    {ev : EpollEvent} (member : ev ∈ batch) :
    ∃ fd ∈ fds, h.interest fd.1 = some ev.ptr ∧ fd.2 = ev.events ∧ isReady ev.ptr ev.events h = true := by
  induction fds generalizing batch with
  | nil =>
    have none_found : [] = batch := Option.some.inj found
    simp [← none_found] at member
  | cons fd fds ih =>
    simp only [deliver,List.mapM_cons,Option.bind_eq_bind,Option.bind_eq_some_iff] at found
    obtain ⟨first,⟨pv,registered,reported⟩,rest,later,same⟩ := found
    obtain rfl : first::rest = batch := Option.some.inj same
    rcases List.mem_cons.mp member with rfl | old
    · split at reported
      · rename_i ready
        obtain rfl := Option.some.inj reported
        exact ⟨fd,by simp,registered,rfl,ready⟩
      · contradiction
    · obtain ⟨fd',listed,told⟩ := ih later old
      exact ⟨fd',by simp [listed],told⟩

/-- The steps of the worker as the command queue sees them. -/
inductive Flow (h : Host) : Worker → Act → Host → Worker → Prop
  | interrupted (code) : Flow h .epollPwait (.epollPwait (.error code)) h .exited
  | delivered (fds batch) (found : deliver h fds = some batch) :
      Flow h .epollPwait (.epollPwait (.ok fds)) (clearReady batch h) (.batch ⟨true,batch⟩)
  | batchEnd (bRun) : Flow h (.batch ⟨bRun,[]⟩) .worker h (if bRun then .epollPwait else .exited)
  | cmdEvent (bRun rest ev) (ptr : ev.ptr = .cmdEvtFd) (input : has ev.events epollin) :
      Flow h (.batch ⟨bRun,ev::rest⟩) .worker h (.command commandBudget ⟨bRun,rest⟩)
  | otherEvent (bRun later rest ev worker) (other : ev.ptr = .cmdEvtFd → has ev.events epollin = false)
      (place : worker.place = .batch ⟨later,rest⟩) : Flow h (.batch ⟨bRun,ev::rest⟩) .worker h worker
  | commandsDone (count b) (finished : h.cmdQueue = [] ∨ count = 0) : Flow h (.command count b) .worker h (.batch b)
  | execute (count b cmd queue host worker) (front : h.cmdQueue = cmd::queue) (left : count ≠ 0)
      (place : worker.place = .executing count b) (same : host.control = h.control) :
      Flow h (.command count b) .worker host worker
  | popCommand (count b) : Flow h (.popCommand count b) .worker h.popCmd (.command (count-1) b)
  | inside (worker act host later) (place : later.place = worker.place) (pushes : h.Pushes host) : Flow h worker act host later

theorem Move.flow {h h' : Host} {w w' : Worker} {act : Act} (move : Move h w act h' w') : Flow h w act h' w' := by
  have same {w w' : Worker} {act : Act} (place : w'.place = w.place) : Flow h w act h w' :=
    .inside w act h w' place (.none rfl)
  cases move with
  | interrupted code => exact .interrupted code
  | delivered fds batch found filled none_left => exact .delivered fds batch found
  | batchEnd bRun => exact .batchEnd bRun
  | cmdEvent bRun rest ev ptr input => exact .cmdEvent bRun rest ev ptr input
  | skipped bRun rest ev ptr none => exact .otherEvent bRun bRun rest ev _ (fun _ => none) rfl
  | timerEvent bRun rest ev ptr input => exact .otherEvent bRun bRun rest ev _ (by simp [ptr]) rfl
  | exitEvent bRun rest ev ptr => exact .otherEvent bRun false rest ev _ (by simp [ptr]) rfl
  | ioEvent bRun rest ev ptr =>
    refine .otherEvent bRun bRun rest ev _ ?_ rfl
    rcases ptr with ptr | ⟨p,ptr⟩ <;> simp [ptr]
  | commandsDone count b finished => exact .commandsDone count b finished
  | sendCommand count b cmd queue p front left kind found => exact .execute count b cmd queue _ _ front left rfl rfl
  | ignored count b cmd queue front left none => exact .execute count b cmd queue _ _ front left rfl rfl
  | disconnected count b cmd queue p object front left kind found live valid =>
    exact .execute count b cmd queue _ _ front left rfl rfl
  | popCommand count b => exact .popCommand count b
  | closeAccepted sock ctx => exact .inside _ _ _ _ (place_resume ctx) (.none (by simp))
  | connected p sock ctx => exact .inside _ _ _ _ (place_resume ctx) (.none rfl)
  | readyWrite p ctx valid => exact same rfl
  | writeInvalid p ctx => exact same (place_resume ctx)
  | sendDone p ctx empty => exact same (place_resume ctx)
  | sendPacket p ctx packet front => exact same rfl
  | packetSent p ctx packet front empty => exact same rfl
  | popPacket p ctx => exact .inside _ _ _ _ rfl (.none rfl)
  | removeFD p sock count b => exact .inside _ _ _ _ rfl (.none rfl)
  | removeClose p sock count b => exact .inside _ _ _ _ rfl (.none (by simp))
  | removeDelete p sock count b => exact .inside _ _ _ _ rfl (.none rfl)
  | removeErase p sock count b => exact .inside _ _ _ _ rfl (.none rfl)
  | timerFailed now b => exact same rfl
  | timer exp now b => exact .inside _ _ _ _ rfl (Host.onTimer_calm exp now h).pushes
  | listenError events ctx soError now kind error => exact same (place_resume ctx)
  | listen events ctx soError now kind fine => exact same rfl
  | serverIo p events ctx soError now kind => exact same (place_doProcessIo p events ctx)
  | clientRefused p events ctx soError now kind refused =>
    exact .inside _ _ _ _ (place_resume ctx) (Host.onBeforeProcessIo_refused refused).pushes
  | clientIo p events ctx soError now kind passed =>
    obtain ⟨object,_,_,⟨_,result⟩ | ⟨_,result⟩⟩ := Host.onBeforeProcessIo_accepted passed
    · exact .inside _ _ _ _ (place_doProcessIo p events ctx) (.none (by rw [result]))
    · exact .inside _ _ _ _ (place_doProcessIo p events ctx) (.none (by rw [result]; simp))
  | acceptFailed code ctx => exact same (place_resume ctx)
  | accepted sock addr ctx conn rest listening waiting nonneg unused => exact .inside _ _ _ _ rfl (.none rfl)
  | nonBlocking sock addr ctx => exact same rfl
  | blocking sock addr ctx => exact same (place_resume ctx)
  | added sock addr ctx raw now refused ok => exact .inside _ _ _ _ rfl (.none (by simp))
  | notAdded sock addr ctx raw now refused failed => exact .inside _ _ _ _ rfl (.none (by simp))
  | readInvalid p events ctx now none => exact same (place_resume ctx)
  | readStarted p events ctx now sock next started => exact .inside _ _ _ _ rfl (Host.startReceive_calm started).1.pushes
  | readOn p sock events ctx rc addr timeMs fits again =>
    obtain ⟨mid,buf,from_addr,calm,result⟩ := Host.handleReceive_again again
    have shown : Host.Pushes h (mid.observe (.doRead p sock buf from_addr)) :=
      ⟨calm.commands,calm.cmdReady,calm.cmdEvtFd,calm.epollFd⟩
    exact .inside _ _ _ _ rfl (result ▸ shown)
  | readDone p sock events ctx rc addr timeMs rs fits done =>
    exact .inside _ _ _ _ (place_afterRead rs p events ctx) (Host.handleReceive_done done).pushes
  | written p ctx packet count front left fits =>
    obtain ⟨addr,sent⟩ := h.handleSend_ok p packet count
    exact .inside _ _ _ _ rfl (.none (by simp [sent]))
  | writeFailed p ctx code => exact same (place_resume ctx)

theorem CallStep.flow {h h' : Host} {w : Worker} {c c' : Caller} {reply : Reply} (call : CallStep h w c reply h' c') :
    (∃ cmd fd next, c = .trigger cmd fd next ∧ c' = .evtWrite next ∧ h.hasStart ∧ h' = h.pushCmd cmd fd) ∨
    (c = .evtWrite c' ∧ h' = h.writeCmdEvt) ∨
    (c = .stop .clear ∧ c' = .stop .release ∧ h' = {h with cmdQueue := []}) ∨
    (c = .stop .closeFds ∧ c' = .idle ∧ h' = h.closeManagerFds.observe (.stopped true)) ∨
    ((∀ next, c ≠ .evtWrite next) ∧ h'.control = h.control) := by
  cases call
  case push cmd fd next started => exact .inl ⟨cmd,fd,next,rfl,rfl,started,rfl⟩
  case evtWrite => exact .inr (.inl ⟨rfl,rfl⟩)
  case clear => exact .inr (.inr (.inl ⟨rfl,rfl,rfl⟩))
  case closeFds => exact .inr (.inr (.inr (.inl ⟨rfl,rfl,rfl⟩)))
  all_goals exact .inr (.inr (.inr (.inr ⟨by simp,by first | rfl | simp⟩)))

end Sys

/-- A call of `Stop` that has joined the worker, or will go on as one that has. -/
def Caller.joined : Caller → Bool
  | .stop .clear | .stop .release | .stop .closeFds => true
  | .trigger _ _ next | .evtWrite next => next.joined
  | _ => false

@[simp] theorem joined_afterAdd (notify : Bool) (sock : SOCKET) (p : Ptr) : (Sys.afterAdd notify sock p).joined = false := by
  cases notify <;> rfl

theorem callStep_joined {h h' : Host} {w : Worker} {c c' : Caller} {reply : Reply} (call : Sys.CallStep h w c reply h' c')
    (later : c'.joined = true) : c.joined = true ∨ w = .exited := by
  cases call <;> first | exact .inr ‹w = .exited› | simp_all [Caller.joined]

namespace Sys

/-- What the command queue needs to know about the rest of the process. -/
structure Control (s : Sys) : Prop where
  executing : ∀ count b, s.worker.place = .executing count b → s.host.cmdQueue ≠ [] ∧ count ≠ 0
  joined : ∀ c ∈ s.callers, c.joined = true → s.worker = .exited
  started : s.worker ≠ .exited → s.host.cmdEvtFd ≠ invalidFd ∧ s.host.epollFd ≠ invalidFd

theorem started_control (config : Config) : Control config.started := by
  refine ⟨by simp [Config.started,Worker.place],?_,fun _ => ⟨config.cmd_open.2,config.epoll_open.2⟩⟩
  intro c member joined
  simp only [Config.started,List.mem_replicate] at member
  simp [member.2,Caller.joined] at joined

private theorem Control.set {s : Sys} (control : Control s) {host : Host} {t : Nat} {c : Caller}
    (same : host.control = s.host.control)
    (later : c.joined = true → s.worker = .exited) : Control ({s with host := host}.setCaller t c) := by
  simp only [Host.control,Prod.mk.injEq] at same
  obtain ⟨cmdQueue,_,cmdEvtFd,epollFd⟩ := same
  refine ⟨fun count b place => ?_,fun other member joined => ?_,fun working => ?_⟩
  · exact cmdQueue ▸ control.executing count b place
  · rcases List.mem_or_eq_of_mem_set member with old | rfl
    · exact control.joined other old joined
    · exact later joined
  · exact cmdEvtFd ▸ epollFd ▸ control.started working

private theorem Control.call {s : Sys} (control : Control s) {t : Nat} {c c' : Caller} {reply : Reply} {host : Host}
    (found : s.callers[t]? = some c) (call : CallStep s.host s.worker c reply host c') :
    Control ({s with host := host}.setCaller t c') := by
  have later (joined : c'.joined = true) : s.worker = .exited :=
    (callStep_joined call joined).elim (control.joined c (List.mem_of_getElem? found)) id
  have stopped (joined : c.joined = true) : s.worker = .exited := control.joined c (List.mem_of_getElem? found) joined
  have callers : ∀ other ∈ s.callers.set t c', other.joined = true → s.worker = .exited := by
    intro other member joined
    rcases List.mem_or_eq_of_mem_set member with old | rfl
    · exact control.joined other old joined
    · exact later joined
  rcases call.flow with ⟨cmd,fd,next,rfl,rfl,started,rfl⟩ | ⟨rfl,rfl⟩ | ⟨rfl,rfl,rfl⟩ | ⟨rfl,rfl,rfl⟩ | ⟨_,same⟩
  · refine ⟨fun count b place => ?_,callers,control.started⟩
    exact ⟨by simp [setCaller,Host.pushCmd],(control.executing count b place).2⟩
  · have same : s.host.writeCmdEvt.cmdQueue = s.host.cmdQueue ∧ s.host.writeCmdEvt.cmdEvtFd = s.host.cmdEvtFd ∧
        s.host.writeCmdEvt.epollFd = s.host.epollFd := by
      unfold Host.writeCmdEvt
      split <;> exact ⟨rfl,rfl,rfl⟩
    exact ⟨fun count b place => same.1 ▸ control.executing count b place,callers,
      fun working => same.2.1 ▸ same.2.2 ▸ control.started working⟩
  · have exited := stopped rfl
    exact ⟨fun count b place => by simp [setCaller,exited,Worker.place] at place,callers,fun working => absurd exited working⟩
  · have exited := stopped rfl
    exact ⟨fun count b place => by simp [setCaller,exited,Worker.place] at place,callers,fun working => absurd exited working⟩
  · exact control.set same later

private theorem Control.work {s : Sys} (control : Control s) {act : Act} {host : Host} {worker : Worker}
    (flow : Flow s.host s.worker act host worker) : Control (s.moveTo host worker) := by
  have pushed (fds : host.cmdEvtFd = s.host.cmdEvtFd ∧ host.epollFd = s.host.epollFd)
      (exits : s.worker = .exited → worker = .exited)
      (executing : ∀ count b, worker.place = .executing count b → host.cmdQueue ≠ [] ∧ count ≠ 0) :
      Control (s.moveTo host worker) := by
    refine ⟨executing,fun c member joined => exits (control.joined c member joined),fun working => ?_⟩
    exact fds.1.symm ▸ fds.2.symm ▸ control.started (fun exited => working (exits exited))
  generalize w_eq : s.worker = w at flow
  cases flow with
  | interrupted code => exact pushed ⟨rfl,rfl⟩ (fun _ => rfl) (by simp [Worker.place])
  | delivered fds batch found => exact pushed ⟨rfl,rfl⟩ (by simp [w_eq]) (by simp [Worker.place])
  | batchEnd bRun =>
    apply pushed ⟨rfl,rfl⟩ (by simp [w_eq])
    cases bRun <;> simp [Worker.place]
  | cmdEvent bRun rest ev ptr input => exact pushed ⟨rfl,rfl⟩ (by simp [w_eq]) (by simp [Worker.place])
  | otherEvent bRun later rest ev worker other place => exact pushed ⟨rfl,rfl⟩ (by simp [w_eq]) (by simp [place])
  | commandsDone count b finished => exact pushed ⟨rfl,rfl⟩ (by simp [w_eq]) (by simp [Worker.place])
  | execute count b cmd queue host worker front left place same =>
    simp only [Host.control,Prod.mk.injEq] at same
    apply pushed ⟨same.2.2.1,same.2.2.2⟩ (by simp [w_eq])
    intro other b' place'
    have equal := place.symm.trans place'
    simp only [Place.executing.injEq] at equal
    exact ⟨by simp [same.1,front],equal.1 ▸ left⟩
  | popCommand count b => exact pushed ⟨rfl,rfl⟩ (by simp [w_eq]) (by simp [Worker.place])
  | inside _ _ host later place pushes =>
    refine pushed ⟨pushes.cmdEvtFd,pushes.epollFd⟩ (fun exited => ?_) ?_
    · exact place_exited.mp (place.trans (place_exited.mpr (w_eq.symm.trans exited)))
    · intro count b at_place
      obtain ⟨added,queue,_⟩ := pushes.commands
      have before := control.executing count b (w_eq ▸ place ▸ at_place)
      exact ⟨by simp [queue,before.1],before.2⟩

theorem Control.step {s next : Sys} {act : Act} (control : Control s) (taken : s.step act = some next) : Control next := by
  cases step_taken taken with
  | arrive conn kind listening => exact ⟨control.executing,control.joined,control.started⟩
  | startAccept refused kind =>
    have same := s.host.control_startAccept refused
    simp only [Host.control,Prod.mk.injEq] at same
    exact ⟨fun count b place => same.1 ▸ control.executing count b place,control.joined,
      fun working => same.2.2.1 ▸ same.2.2.2 ▸ control.started working⟩
  | sendRefused act sends => exact control
  | sent act t sock addr raw buf p object sends kind idle found live valid room =>
    exact control.set (by simp) (by simp [Caller.joined])
  | disconnect t sock idle => exact control.set (show s.host.control = s.host.control from rfl) (by simp [Caller.joined])
  | limitIgnored sock num => exact control
  | limitSet sock num p change kind found which => exact ⟨control.executing,control.joined,control.started⟩
  | connect t op addr idle offered => exact control.set (show s.host.control = s.host.control from rfl) (by simp [Caller.joined])
  | stop t idle outside first =>
    have kept : Control {s with stopCalled := true} := ⟨control.executing,control.joined,control.started⟩
    apply kept.set (show s.host.control = s.host.control from rfl)
    cases kind : s.host.kind <;> simp [firstStopStage,Caller.joined]
  | caller t c reply host next found may call => exact control.call found call
  | worker act host worker idle move => exact control.work move.flow

end Sys

end LightServer
