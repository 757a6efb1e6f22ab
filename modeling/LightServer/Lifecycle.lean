import LightServer.ManagerStart
import LightServer.OpenFds
import LightServer.StopSteps

/-! A `SocketManager` from its construction on: any number of calls of `Start` and `Stop`, and between
them everything that the threads of the process do. -/
namespace LightServer

/-- The object that owns the manager when its constructor returns, and the process around it. -/
structure Construction where
  kind : ServerKind
  listenSocket : SOCKET
  heartbeatInterval : UInt32
  keepAliveTime : UInt32
  timerEventCount : UInt64
  rxBuffer : List UInt8
  isOpen : FD → Bool
  backlog : List Nat
  callers : Nat
  nonneg : ∀ fd, isOpen fd = true → 0 ≤ fd

def Construction.made (construction : Construction) : Sys :=
  {host :=
    {kind := construction.kind, sockObjectMap := ∅, epollFd := invalidFd, exitEvtFd := invalidFd, cmdEvtFd := invalidFd,
     timerEvtFd := invalidFd, maxEvents := 6, cmdQueue := [], listenSocket := construction.listenSocket,
     heartbeatInterval := construction.heartbeatInterval, keepAliveTime := construction.keepAliveTime,
     timerEventCount := construction.timerEventCount, rxBuffer := construction.rxBuffer, heap := fun _ => none, nextPtr := 0,
     isOpen := construction.isOpen, interest := fun _ => none, cmdReady := false, exitReady := false, listenReady := false,
     backlog := construction.backlog, log := []}
   worker := .exited, callers := List.replicate construction.callers .idle, stopCalled := false}

/-- An object in a process that has no other fds. -/
def Construction.plain (kind : ServerKind) (callers : Nat) : Construction where
  kind := kind
  listenSocket := invalidSocket
  heartbeatInterval := 0
  keepAliveTime := 0
  timerEventCount := 0
  rxBuffer := []
  isOpen := fun _ => false
  backlog := []
  callers := callers
  nonneg := by simp

inductive LifeAct
  | start (interval : UInt64) (calls : ManagerCalls)
  | step (act : Act)

namespace Sys

/-- `Stop` does nothing where the manager is not started. -/
def mayStop (act : Act) (s : Sys) : Bool :=
  match act with
  | .stop _ => s.host.hasStart
  | _ => true

def live (s : Sys) (act : LifeAct) : Option Sys :=
  match act with
  | .start interval calls => if s.host.Granted calls.obtained then some (s.start interval calls).2 else none
  | .step act => if s.mayStop act then s.step act else none

end Sys

def Lived (construction : Construction) (acts : List LifeAct) (s : Sys) : Prop :=
  Transition.exec Sys.live construction.made acts = some s

theorem lived_reaches (construction : Construction) (acts : List LifeAct) (P : Sys → Prop) [DecidablePred P]
    (found : (Transition.exec Sys.live construction.made acts).any (fun s => decide (P s)) = true) :
    ∃ s, Lived construction acts s ∧ P s :=
  Transition.exec_reaches P found

namespace Host.KeepsTidy

variable {h : Host} {calls : ManagerCalls}

theorem createEpoll {fd : FD} (nonneg : 0 ≤ fd) (h : Host) : KeepsTidy h (h.createEpoll fd) :=
  ⟨(KeepsTidy.openFD nonneg h).opened,fun _ _ => .inl rfl⟩

theorem setEvtFd (pv : PVOID) (fd : FD) (h : Host) : KeepsTidy h (h.setEvtFd pv fd) :=
  of_same (h.isOpen_setEvtFd fd pv).1 (h.isOpen_setEvtFd fd pv).2.1

theorem setUp (granted : ∀ fd ∈ calls.obtained, 0 ≤ fd) (interval : UInt64) (h : Host) : KeepsTidy h (h.setUp interval calls).2 :=
  setUp_rule (fun fd given host kept => kept.trans (openFD (granted fd given) host))
    (fun host pv fd kept => kept.trans (setEvtFd pv fd host)) (fun host fd pv refused _ kept => kept.trans (addFD fd pv refused host))
      (fun host fd kept => kept.trans (closeFD fd host)) interval (refl h)

theorem stopJoined (h : Host) : KeepsTidy h h.stopJoined.2 := by
  unfold Host.stopJoined
  split
  · have cleared : KeepsTidy h {h with cmdQueue := []} := of_same rfl rfl
    exact (cleared.trans (releaseSocketObjects _)).trans (closeManagerFds _)
  · exact refl h

end Host.KeepsTidy

namespace Sys

variable {s next : Sys} {act : Act} {interval : UInt64} {calls : ManagerCalls}

theorem managed_step (taken : s.step act = some next) : next.host.managed = s.host.managed ∨
    next.host.managed = (invalidFd,invalidFd,invalidFd,invalidFd) ∧
      ∃ t, s.callers[t]? = some (.stop .closeFds) ∧ next.callers = s.callers.set t .idle ∧ next.stopCalled = s.stopCalled := by
  cases step_taken taken with
  | startAccept refused kind => exact .inl (Host.KeepsFds.startAccept refused s.host).managed
  | caller t c reply host later found may call =>
    by_cases connecting : ∃ op addr, c = .socket op addr
    · obtain ⟨op,addr,rfl⟩ := connecting
      left
      cases call <;> rfl
    · rcases call.fds (fun op addr same => connecting ⟨op,addr,same⟩) with keeps | ⟨rfl,rfl,rfl⟩
      · exact .inl keeps.managed
      · exact .inr ⟨rfl,t,found,rfl,rfl⟩
  | worker act host worker idle move => exact .inl move.fds.managed
  | _ => exact .inl rfl

theorem CallStep.progress {h h' : Host} {w : Worker} {c c' : Caller} {reply : Reply} (call : CallStep h w c reply h' c')
    (stopping : 0 < c'.progress) : 0 < c.progress := by
  cases call <;> simp_all [Caller.progress]

/-- What the steps do to the threads: only a call of `Stop` enters `Stop`. -/
theorem callers_step (taken : s.step act = some next) :
    (next.callers = s.callers ∧ next.stopCalled = s.stopCalled) ∨
    (∃ t c c', s.callers[t]? = some c ∧ next.callers = s.callers.set t c' ∧ (0 < c'.progress → 0 < c.progress) ∧
      next.stopCalled = s.stopCalled) ∨
    ∃ t c', act = .stop t ∧ s.stopCalled = false ∧ next.stopCalled = true ∧ next.callers = s.callers.set t c' := by
  cases step_taken taken with
  | sent act t sock addr raw buf p object sends kind idle found live valid room =>
    exact .inr (.inl ⟨t,_,_,idle,rfl,by simp [Caller.progress],rfl⟩)
  | disconnect t sock idle => exact .inr (.inl ⟨t,_,_,idle,rfl,by simp [Caller.progress],rfl⟩)
  | connect t op addr idle offered => exact .inr (.inl ⟨t,_,_,idle,rfl,by simp [Caller.progress],rfl⟩)
  | stop t idle outside first => exact .inr (.inr ⟨t,_,rfl,first,rfl,rfl⟩)
  | caller t c reply host later found may call => exact .inr (.inl ⟨t,c,later,found,rfl,call.progress,rfl⟩)
  | _ => exact .inl ⟨rfl,rfl⟩

/-- A thread that has joined the worker is inside `Stop`. -/
theorem not_joined {c : Caller} (outside : c.progress = 0) : c.joined = false := by
  induction c with
  | trigger cmd fd next ih => exact ih outside
  | evtWrite next ih => exact ih outside
  | stop stage => cases stage <;> simp [Caller.progress] at outside
  | _ => rfl

/-- At most one thread is inside `Stop`, and while it is there the manager is started. -/
structure OneStop (s : Sys) : Prop where
  fresh : s.stopCalled = false → ∀ c ∈ s.callers, c.progress = 0
  alone : ∀ (t t' : Nat) (c c' : Caller), s.callers[t]? = some c → s.callers[t']? = some c' → 0 < c.progress →
    0 < c'.progress → t = t'
  running : ∀ c ∈ s.callers, 0 < c.progress → s.host.hasStart = true

theorem hasStart_of_managed {h h' : Host} (same : h'.managed = h.managed) : h'.hasStart = h.hasStart := by
  simp only [Host.managed,Prod.mk.injEq] at same
  simp only [Host.hasStart,same.1]

theorem OneStop.step (one : OneStop s) (may : s.mayStop act = true) (taken : s.step act = some next) : OneStop next := by
  rcases callers_step taken with ⟨callers,called⟩ | ⟨t,c,c',found,callers,inside,called⟩ | ⟨t,c',rfl,first,called,callers⟩
  · refine ⟨called ▸ callers ▸ one.fresh,callers ▸ one.alone,fun d member going => ?_⟩
    rw [callers] at member
    rcases managed_step taken with same | ⟨_,u,at_u,others,_⟩
    · exact (hasStart_of_managed same).trans (one.running d member going)
    · obtain ⟨v,at_v⟩ := List.mem_iff_getElem?.mp member
      obtain rfl : v = u := one.alone v u d _ at_v at_u going (by decide)
      rw [← callers,others,List.getElem?_set_self (List.getElem?_eq_some_iff.mp at_u).1] at at_v
      obtain rfl := Option.some.inj at_v
      simp [Caller.progress] at going
  · have before (u : Nat) (d : Caller) (at_u : next.callers[u]? = some d) (going : 0 < d.progress) :
        ∃ e, s.callers[u]? = some e ∧ 0 < e.progress := progress_of_set found inside (callers ▸ at_u) going
    refine ⟨fun fresh d member => ?_,fun u u' d d' at_u at_u' going going' => ?_,fun d member going => ?_⟩
    · by_contra moving
      obtain ⟨u,at_u⟩ := List.mem_iff_getElem?.mp member
      obtain ⟨e,at_e,was⟩ := before u d at_u (by omega)
      exact absurd (one.fresh (called ▸ fresh) e (List.mem_of_getElem? at_e)) (by omega)
    · obtain ⟨e,at_e,was⟩ := before u d at_u going
      obtain ⟨e',at_e',was'⟩ := before u' d' at_u' going'
      exact one.alone u u' e e' at_e at_e' was was'
    · obtain ⟨u,at_u⟩ := List.mem_iff_getElem?.mp member
      obtain ⟨e,at_e,was⟩ := before u d at_u going
      rcases managed_step taken with same | ⟨_,v,at_v,others,_⟩
      · exact (hasStart_of_managed same).trans (one.running e (List.mem_of_getElem? at_e) was)
      · obtain rfl : u = v := one.alone u v e _ at_e at_v was (by decide)
        rw [others,List.getElem?_set_self (List.getElem?_eq_some_iff.mp at_v).1] at at_u
        obtain rfl := Option.some.inj at_u
        simp [Caller.progress] at going
  · have idle := one.fresh first
    have other (u : Nat) (d : Caller) (at_u : next.callers[u]? = some d) (going : 0 < d.progress) : t = u := by
      rw [callers] at at_u
      by_contra differs
      rw [List.getElem?_set_ne differs] at at_u
      exact absurd (idle d (List.mem_of_getElem? at_u)) (by omega)
    refine ⟨fun fresh => by simp [called] at fresh,fun u u' d d' at_u at_u' going going' => ?_,fun _ _ _ => ?_⟩
    · exact (other u d at_u going).symm.trans (other u' d' at_u' going')
    · rcases managed_step taken with same | ⟨_,v,at_v,_,_⟩
      · exact (hasStart_of_managed same).trans may
      · exact absurd (idle _ (List.mem_of_getElem? at_v)) (by decide)

/-- What holds of a manager whether it is started or not. -/
structure Alive (s : Sys) : Prop where
  control : Control s
  tidy : s.host.Tidy
  one : OneStop s
  down : s.host.hasStart = false → s.host.managed = (invalidFd,invalidFd,invalidFd,invalidFd)

theorem Alive.exited (alive : Alive s) (stopped : s.host.hasStart = false) : s.worker = .exited := by
  by_contra working
  have started := (alive.control.started working).2
  simp [Host.hasStart,started] at stopped

theorem made_alive (construction : Construction) : Alive construction.made := by
  have idle (c) (member : c ∈ construction.made.callers) : c = .idle := by
    simp only [Construction.made,List.mem_replicate] at member
    exact member.2
  refine ⟨⟨by simp [Construction.made,Worker.place],fun c member joined => ?_,by simp [Construction.made]⟩,
    ⟨construction.nonneg,fun _ _ => rfl⟩,⟨fun _ c member => ?_,fun t t' c c' found _ going _ => ?_,fun c member going => ?_⟩,fun _ => rfl⟩
  · rfl
  · rw [idle c member]
    rfl
  · simp [idle c (List.mem_of_getElem? found),Caller.progress] at going
  · simp [idle c member,Caller.progress] at going

theorem Alive.step (alive : Alive s) (may : s.mayStop act = true) (taken : s.step act = some next) : Alive next := by
  refine ⟨alive.control.step taken,(step_keepsTidy taken).tidy alive.tidy,alive.one.step may taken,fun stopped => ?_⟩
  rcases managed_step taken with same | ⟨down,_⟩
  · exact same.trans (alive.down ((hasStart_of_managed same).symm.trans stopped))
  · exact down

theorem Alive.start_cases (alive : Alive s) (interval : UInt64) (granted : s.host.Granted calls.obtained) :
    (s.start interval calls = (-1,s) ∧ (s.host.hasStart = true ∨ calls.epollCreate1.isOk = false)) ∨
    ∃ made, Host.Made s.host interval calls made ∧ (s.host.hasStart = false ∧ calls.epollCreate1.isOk = true) ∧
      s.host.KeepsTidy made.2 ∧
      (calls.Succeed interval ∧ s.start interval calls = (0,{s.moveTo made.2 .epollPwait with stopCalled := false}) ∨
        ¬ calls.Succeed interval ∧ s.start interval calls = (-1,{s with host := made.2.stopJoined.2})) := by
  cases stopped : s.host.hasStart with
  | true => exact .inl ⟨by simp [start,stopped],.inl rfl⟩
  | false =>
    have unset := alive.down stopped
    cases epoll : calls.epollCreate1 with
    | error code =>
      have same : s.host.epollFd = invalidFd := congrArg Prod.fst unset
      exact .inl ⟨by simp [start,stopped,epoll,← same],.inr rfl⟩
    | ok fd =>
      have made := Host.setUp_made interval granted alive.tidy.invalid unset epoll
      have nonneg : 0 ≤ fd := (granted.2 fd (by simp [ManagerCalls.obtained,epoll,Except.toOption])).1
      have keeps := (Host.KeepsTidy.createEpoll nonneg s.host).trans (.setUp (fun fd member => (granted.2 fd member).1) interval _)
      refine .inr ⟨_,made,⟨rfl,rfl⟩,keeps,?_⟩
      by_cases succeed : calls.Succeed interval
      · exact .inl ⟨succeed,by simp [start,stopped,epoll,made.goesOn.mpr succeed]⟩
      · exact .inr ⟨succeed,by simp [start,stopped,epoll,mt made.goesOn.mp succeed]⟩

theorem Alive.start (alive : Alive s) (interval : UInt64) (granted : s.host.Granted calls.obtained) : Alive (s.start interval calls).2 := by
  rcases alive.start_cases interval granted with ⟨same,_⟩ | ⟨made,built,⟨stopped,_⟩,keeps,⟨succeed,result⟩ | ⟨failed,result⟩⟩
  · exact same ▸ alive
  · rw [result]
    have idle (c) (member : c ∈ s.callers) : c.progress = 0 := by
      by_contra going
      simpa [stopped] using alive.one.running c member (by omega)
    have goes := built.goesOn.mpr succeed
    have valid := (built.watches goes).1.1
    refine ⟨⟨fun count b place => ?_,fun c member joined => ?_,fun _ => ⟨valid,built.epoll⟩⟩,keeps.tidy alive.tidy,
      ⟨fun _ => idle,fun t t' c c' found _ going _ => ?_,fun c member going => ?_⟩,fun down => ?_⟩
    · simp [moveTo,Worker.place] at place
    · exact absurd joined (by simp [not_joined (idle c member)])
    · exact absurd (idle c (List.mem_of_getElem? found)) (by omega)
    · exact absurd (idle c member) (by omega)
    · simp [Host.hasStart,moveTo,built.epoll] at down
  · rw [result]
    have exited := alive.exited stopped
    have shut := (keeps.tidy alive.tidy).invalid
    obtain ⟨_,_,down,_⟩ := Host.stopJoined_undoes built.epoll shut
    refine ⟨⟨fun count b place => ?_,fun _ _ _ => exited,fun working => absurd exited working⟩,
      (keeps.trans (.stopJoined _)).tidy alive.tidy,⟨alive.one.fresh,alive.one.alone,fun c member going => ?_⟩,fun _ => down⟩
    · simp [exited,Worker.place] at place
    · simpa [stopped] using alive.one.running c member going

theorem alive_of_lived {construction : Construction} {acts : List LifeAct} (lived : Lived construction acts s) : Alive s := by
  refine Transition.exec_invariant_free (fun state act next alive taken => ?_) (made_alive construction) lived
  cases act with
  | start interval calls =>
    obtain ⟨granted,rfl⟩ : _ ∧ (state.start interval calls).2 = next := by simpa [live] using taken
    exact alive.start interval granted
  | step act =>
    obtain ⟨may,taken⟩ : _ ∧ state.step act = some next := by simpa [live] using taken
    exact alive.step may taken

/-- The map, the queue and the fds of the manager are as before, and every fd that was closed before is closed. -/
def Unchanged (s next : Sys) : Prop :=
  next.host.sockObjectMap = s.host.sockObjectMap ∧ next.host.cmdQueue = s.host.cmdQueue ∧ next.host.managed = s.host.managed ∧
    ∀ fd, s.host.isOpen fd = false → next.host.isOpen fd = false

/-- All the fds that are asked for are valid, open and registered, and the worker runs. -/
def SetUp (interval : UInt64) (next : Sys) : Prop :=
  (next.host.epollFd ≠ invalidFd ∧ next.host.isOpen next.host.epollFd = true) ∧ next.host.Watches .cmdEvtFd ∧
    next.host.Watches .exitEvtFd ∧ (0 < interval → next.host.Watches .timerEvtFd) ∧ next.worker = .epollPwait

/-- What a caller of `Start` may conclude from its result. -/
def AllOrNothing (interval : UInt64) (s : Sys) (result : Int × Sys) : Prop :=
  (result.1 = -1 → Unchanged s result.2) ∧ (result.1 = 0 → SetUp interval result.2)

/-- `Stop` is not reached, or has nothing to give up but what `Start` has stored. -/
def StartsClean (interval : UInt64) (calls : ManagerCalls) (s : Sys) : Prop :=
  s.host.hasStart = true ∨ calls.epollCreate1.isOk = false ∨ calls.Succeed interval ∨
    s.host.sockObjectMap = ∅ ∧ s.host.cmdQueue = [] ∧ ¬ calls.SettimeFails interval

instance (interval : UInt64) (calls : ManagerCalls) (s : Sys) : Decidable (StartsClean interval calls s) :=
  inferInstanceAs (Decidable (_ ∨ _))

theorem Unchanged.refl (s : Sys) : Unchanged s s := ⟨rfl,rfl,rfl,fun _ => id⟩

/-- Where every timer is stored, `Stop` closes what `Start` has opened, and no more. -/
theorem Alive.undone_isOpen (alive : Alive s) {made : Bool × Host} (built : Host.Made s.host interval calls made)
    (keeps : s.host.KeepsTidy made.2) (set : ¬ calls.SettimeFails interval) : made.2.stopJoined.2.isOpen = s.host.isOpen := by
  obtain ⟨_,_,_,isOpen,_⟩ := Host.stopJoined_undoes built.epoll (keeps.tidy alive.tidy).invalid
  obtain ⟨fds,building⟩ := built.stored set
  ext fd
  rw [Bool.eq_iff_iff,isOpen fd,building.isOpen fd]
  constructor
  · rintro ⟨old | new,unstored⟩
    · exact old
    · exact absurd ((building.stored fd).mp new).1 unstored
  · intro old
    refine ⟨.inl old,fun stored => ?_⟩
    have valid := Host.Building.valid (alive.tidy.nonneg fd old)
    have fresh := (building.fresh fd ((building.stored fd).mpr ⟨stored,valid⟩)).2
    simp [old] at fresh

theorem Alive.undone_iff (alive : Alive s) (stopped : s.host.hasStart = false) {made : Bool × Host}
    (built : Host.Made s.host interval calls made) (keeps : s.host.KeepsTidy made.2) :
    Unchanged s {s with host := made.2.stopJoined.2} ↔
      s.host.sockObjectMap = ∅ ∧ s.host.cmdQueue = [] ∧ ¬ calls.SettimeFails interval := by
  obtain ⟨map,queue,managed,isOpen,_⟩ := Host.stopJoined_undoes built.epoll (keeps.tidy alive.tidy).invalid
  constructor
  · rintro ⟨sameMap,sameQueue,_,closed⟩
    refine ⟨sameMap.symm.trans map,sameQueue.symm.trans queue,fun fails => ?_⟩
    obtain ⟨fd,unused,opened,unstored⟩ := built.leaked fails
    have still := (isOpen fd).mpr ⟨opened,unstored⟩
    exact absurd (closed fd unused) (by simp [still])
  · rintro ⟨emptyMap,emptyQueue,set⟩
    refine ⟨map.trans emptyMap.symm,queue.trans emptyQueue.symm,managed.trans (alive.down stopped).symm,fun fd shut => ?_⟩
    exact (congrFun (alive.undone_isOpen built keeps set) fd).trans shut

theorem Alive.done_setUp {made : Bool × Host} (built : Host.Made s.host interval calls made)
    (succeed : calls.Succeed interval) : SetUp interval {s.moveTo made.2 .epollPwait with stopCalled := false} := by
  obtain ⟨cmd,exit,timer⟩ := built.watches (built.goesOn.mpr succeed)
  have set : ¬ calls.SettimeFails interval := by
    rintro ⟨_,timed,_,_,failed⟩
    simp [(succeed.2.1 timed).2.2.1] at failed
  obtain ⟨fds,building⟩ := built.stored set
  have member : made.2.epollFd ∈ fds := (building.stored _).mpr ⟨by simp [Host.managedFds],built.epoll⟩
  exact ⟨⟨built.epoll,(building.isOpen _).mpr (.inr member)⟩,cmd,exit,timer,rfl⟩

/-- `Start` does all or nothing exactly if its `Stop` finds nothing of earlier calls and every timer is stored. -/
theorem start_all_or_nothing_iff {construction : Construction} {acts : List LifeAct} {s : Sys}
    (lived : Lived construction acts s) (interval : UInt64) (calls : ManagerCalls) (granted : s.host.Granted calls.obtained) :
    s.AllOrNothing interval (s.start interval calls) ↔ s.StartsClean interval calls := by
  have alive := alive_of_lived lived
  rcases alive.start_cases interval granted with ⟨same,early⟩ | ⟨made,built,⟨stopped,epoll⟩,keeps,⟨succeed,result⟩ | ⟨failed,result⟩⟩
  · rw [same]
    refine ⟨fun _ => ?_,fun _ => ⟨fun _ => .refl s,fun done => absurd done (by simp)⟩⟩
    exact early.elim .inl (fun none => .inr (.inl none))
  · rw [result]
    refine ⟨fun _ => .inr (.inr (.inl succeed)),fun _ => ⟨fun undone => absurd undone (by simp),fun _ => ?_⟩⟩
    exact Alive.done_setUp built succeed
  · rw [result]
    have undone := alive.undone_iff stopped built keeps
    constructor
    · intro whole
      exact .inr (.inr (.inr (undone.mp (whole.1 rfl))))
    · rintro (started | none | succeed | clean)
      · simp [stopped] at started
      · simp [epoll] at none
      · exact absurd succeed failed
      · exact ⟨fun _ => undone.mpr clean,fun done => absurd done (by simp)⟩

/-- A client with a connection that was asked for before `Start`. -/
def connectingClient (connections : List FD) : List LifeAct :=
  connections.flatMap (fun sock => [.step (.connect 1 .asynchConnectTo []),.step (.caller 1 (.fd sock)),
    .step (.caller 1 (.inProgress .blank))] ++ List.replicate 3 (.step (.caller 1 .done)))

def grantedCalls (exitEventfd : Except Errno FD) : ManagerCalls :=
  ⟨.ok 4,.ok 5,false,exitEventfd,false,.ok ⟨0,0⟩,.ok 7,.ok (),false,.ok ()⟩

theorem connecting_client_starts : ∃ s, Lived (.plain .tcpClient 2) (connectingClient [3]) s ∧ s.host.sockObjectMap.keys = [3] ∧
    s.AllOrNothing 1000 (s.start 1000 (grantedCalls (.ok 6))) := by
  obtain ⟨s,lived,keys,granted,clean⟩ := lived_reaches (.plain .tcpClient 2) (connectingClient [3])
    (fun s => s.host.sockObjectMap.keys = [3] ∧ s.host.Granted (grantedCalls (.ok 6)).obtained ∧
      s.StartsClean 1000 (grantedCalls (.ok 6))) (by decide +kernel)
  exact ⟨s,lived,keys,(start_all_or_nothing_iff lived 1000 (grantedCalls (.ok 6)) granted).mpr clean⟩

/-- The second `eventfd` fails: the connection that was being made is deleted and forgotten. -/
theorem connecting_client_forgets : ∃ s, Lived (.plain .tcpClient 2) (connectingClient [3]) s ∧
    s.host.Granted (grantedCalls (.error 24)).obtained ∧ ¬ s.AllOrNothing 1000 (s.start 1000 (grantedCalls (.error 24))) := by
  obtain ⟨s,lived,granted,failed,before,after⟩ := lived_reaches (.plain .tcpClient 2) (connectingClient [3])
    (fun s => s.host.Granted (grantedCalls (.error 24)).obtained ∧ (s.start 1000 (grantedCalls (.error 24))).1 = -1 ∧
      s.host.sockObjectMap.keys = [3] ∧ (s.start 1000 (grantedCalls (.error 24))).2.host.sockObjectMap.keys = []) (by decide +kernel)
  refine ⟨s,lived,granted,fun whole => ?_⟩
  have same := (whole.1 failed).1
  rw [same,before] at after
  contradiction

end Sys

end LightServer
