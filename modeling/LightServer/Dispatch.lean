import LightServer.Accept
import LightServer.TableInvariant

/-! The pointers that `DoWork` and `ProcessCommand` pass to `ProcessIo`. Those of a batch
are fixed when `epoll_pwait` returns, and a command of the same batch may delete them. -/
namespace LightServer

/-- The object is in `sock_object_map_`. -/
def Host.holds (p : Ptr) (h : Host) : Prop := p ∈ h.sockObjectMap.entries.map Sigma.snd

instance (p : Ptr) (h : Host) : Decidable (h.holds p) := inferInstanceAs (Decidable (_ ∈ _))

theorem Host.holds_iff (p : Ptr) (h : Host) : h.holds p ↔ ∃ sock, h.table.find sock = some p := by
  rw [holds,List.mem_map]
  constructor
  · rintro ⟨entry,member,rfl⟩
    exact ⟨entry.1,AList.mem_lookup_iff.mpr member⟩
  · rintro ⟨sock,found⟩
    exact ⟨⟨sock,p⟩,AList.mem_lookup_iff.mp found,rfl⟩

namespace View

/-- The objects still to be dispatched are in the map, and the worker is not removing one. -/
def Live (v : View) : Prop :=
  ∀ p ∈ v.pending, (∃ sock, v.table.find sock = some p) ∧ ∀ stage sock, v.role ≠ .removing stage p sock

/-- The object is not in the map and never will be again. -/
def Doomed (v : View) (p : Ptr) : Prop :=
  ((∀ sock, v.table.find sock ≠ some p) ∧ ∀ task ∈ v.tasks, task.making ≠ some p) ∨
    ∃ stage sock, v.role = .removing stage p sock

theorem Step.live {v v' : View} (step : Step v v') (sound : v.Sound) (entered : v.Entered)
    (told : v.pending = [] → ∀ p ∈ v'.pending, ∃ sock, v.table.find sock = some p)
    (removes : ∀ p sock, v'.role = .removing .deleteFD p sock → v.role = .free → p ∉ v.pending) (live : v.Live) : v'.Live := by
  cases step with
  | stutter => exact live
  | deliver T pending tasks _ => exact fun p member => ⟨told rfl p member,by simp⟩
  | event T p pending tasks => exact fun q member => ⟨(live q (by simp [member])).1,by simp⟩
  | command T fd p pending tasks found => exact fun q member => ⟨(live q member).1,by simp⟩
  | exit T tasks => exact fun q member => ⟨(live q member).1,by simp⟩
  | work T role pending tasks T' role' work =>
    have same {T' : Table} (find : T'.find = T.find)
        (removing : ∀ p stage sock, role' = .removing stage p sock → ∃ stage sock, role = .removing stage p sock) :
        Live ⟨T',role',pending,false,tasks⟩ := by
      intro q member
      refine ⟨find ▸ (live q member).1,fun stage sock now => ?_⟩
      obtain ⟨stage,sock,before⟩ := removing q stage sock now
      exact (live q member).2 stage sock before
    have closed {T' : Table} (closes : T.Closes T')
        (removing : ∀ p stage sock, role' = .removing stage p sock → ∃ stage sock, role = .removing stage p sock) :
        Live ⟨T',role',pending,false,tasks⟩ := by
      obtain ⟨_,_,rfl,_,_⟩ := closes
      exact same rfl removing
    cases work with
    | rest _ _ settled later =>
      apply same rfl
      intro p stage sock now
      rcases later with rfl | rfl | ⟨q,k,_,rfl⟩
      · exact ⟨stage,sock,now⟩
      · simp at now
      · simp at now
    | handle p ready => exact same rfl (by simp)
    | connect p sock _ kind core later =>
      apply same rfl
      intro q stage k now
      rcases later with rfl | rfl <;> simp at now
    | startRead p sock connected core => exact same rfl (by simp)
    | doRead p sock => exact same rfl (by simp)
    | listen kind => exact same rfl (by simp)
    | accept sock nonneg unused listening => exact same rfl (by simp)
    | add sock registered absent registers =>
      intro q member
      obtain ⟨⟨k,found⟩,_⟩ := live q member
      have differs : k ≠ sock := by
        rintro rfl
        simp [show T.find k = none from absent] at found
      exact ⟨⟨k,by simpa [differs] using found⟩,by simp⟩
    | leak sock core present => exact same rfl (by simp)
    | closeAccepted sock => exact closed (T.closes_closeFD sock) (by simp)
    | announce p sock => exact same rfl (by simp)
    | disconnect fd p sock connected found core =>
      intro q member
      refine ⟨(live q member).1,fun stage k now => ?_⟩
      obtain ⟨_,rfl,_⟩ := Role.removing.inj now
      exact removes p sock rfl rfl member
    | removeFD p sock => exact same rfl (fun q stage k now => ⟨.deleteFD,sock,by simp [(Role.removing.inj now).2.1]⟩)
    | removeClose p sock =>
      exact closed (T.closes_closeFD sock) (fun q stage k now => ⟨.close,sock,by simp [(Role.removing.inj now).2.1]⟩)
    | removeDelete p sock => exact same rfl (fun q stage k now => ⟨.delete,sock,by simp [(Role.removing.inj now).2.1]⟩)
    | removeErase p sock =>
      intro q member
      obtain ⟨⟨k,found⟩,others⟩ := live q member
      have differs : k ≠ sock := by
        rintro rfl
        obtain rfl : p = q := Option.some.inj ((entered.removing _ _ _ rfl).symm.trans found)
        exact others _ _ rfl
      exact ⟨⟨k,by simpa [differs] using found⟩,by simp⟩
  | call T role pending exited tasks t task T' task' at_t call =>
    have same {T' : Table} (find : T'.find = T.find) : Live ⟨T',role,pending,exited,tasks.set t task'⟩ :=
      fun q member => ⟨find ▸ (live q member).1,(live q member).2⟩
    have closed {T' : Table} (closes : T.Closes T') : Live ⟨T',role,pending,exited,tasks.set t task'⟩ := by
      obtain ⟨_,_,rfl,_,_⟩ := closes
      exact same rfl
    cases call with
    | insert sock p notify find inserts =>
      intro q member
      obtain ⟨⟨k,found⟩,others⟩ := live q member
      refine ⟨⟨k,?_⟩,others⟩
      rcases inserts with rfl | ⟨missing,rfl⟩
      · exact found
      · have differs : k ≠ sock := by
          rintro rfl
          simp [missing] at found
        simpa [differs] using found
    | release core registered finished fewer unregistered =>
      have empty : pending = [] := (sound.finished finished).2
      intro q member
      simp [empty] at member
    | closeFD sock => exact closed (T.closes_closeFD sock)
    | closeListenSocket => exact closed (T.closes_closeFD T.listenSocket)
    | closeFds _ finished closes => exact closed closes
    | _ => exact same rfl

theorem Step.doomed {v v' : View} (step : Step v v') (sound : v.Sound) (entered : v.Entered) {p : Ptr} (member : p ∈ v.pending)
    (doomed : v.Doomed p) : v'.Doomed p := by
  have old : p ≠ v.table.nextPtr := (sound.visible p (.inr member)).ne
  have hidden (task) (at_work : task ∈ v.tasks) : task.making ≠ some p := fun making =>
    sound.making task at_work p making (.inr member)
  have making (task) (at_work : task ∈ v'.tasks) : task.making ≠ some p := by
    intro makes
    rcases step.making_new at_work makes with ⟨before,at_before,made⟩ | new
    · exact hidden before at_before made
    · exact old new
  have gone (missing : ∀ sock, v.table.find sock ≠ some p) : v'.Doomed p := by
    refine .inl ⟨fun sock found => ?_,making⟩
    rcases step.find_new found with before | new | ⟨task,at_work,makes⟩
    · exact missing sock before
    · exact old new
    · exact hidden task at_work makes
  rcases doomed with ⟨missing,_⟩ | ⟨stage,sock,removing⟩
  · exact gone missing
  · cases step with
    | stutter => exact .inr ⟨stage,sock,removing⟩
    | deliver => simp at removing
    | event => simp at removing
    | command => simp at removing
    | exit => simp at removing
    | call => exact .inr ⟨stage,sock,removing⟩
    | work T role pending tasks T' role' work =>
      dsimp only at removing
      subst removing
      cases work with
      | rest _ _ settled later => simp [Role.settled] at settled
      | removeFD _ _ => exact .inr ⟨_,sock,rfl⟩
      | removeClose _ _ => exact .inr ⟨_,sock,rfl⟩
      | removeDelete _ _ => exact .inr ⟨_,sock,rfl⟩
      | removeErase _ _ =>
        refine .inl ⟨fun k found => ?_,making⟩
        by_cases erased : k = sock
        · simp [erased] at found
        · have before : T.find k = some p := by simpa [erased] using found
          exact erased (entered.unique k sock p before (entered.removing _ _ _ rfl))

end View

namespace Sys

/-- The object whose pointer the step passes to `ProcessIo`. -/
def dispatched (s : Sys) (act : Act) : Option Ptr :=
  match s.worker, act with
  | .batch ⟨_,ev::_⟩, .worker => ev.ptr.object?
  | .command count _, .worker =>
    match s.host.cmdQueue with
    | cmd::_ => if count ≠ 0 ∧ cmd.cmd = .send then s.host.findSocketObject cmd.fd else none
    | [] => none
  | _, _ => none

/-- The object that the step starts to remove. -/
def removed (s : Sys) (act : Act) : Option Ptr :=
  match s.worker, act with
  | .command count _, .worker =>
    match s.host.cmdQueue with
    | cmd::_ =>
      if count ≠ 0 ∧ cmd.cmd = .disconnect then
        (s.host.findSocketObject cmd.fd).filter (fun p => s.host.isValid (some p))
      else none
    | [] => none
  | _, _ => none

def DispatchesLive (s : Sys) (act : Act) : Prop := ∀ p ∈ s.dispatched act, s.host.holds p

instance (s : Sys) (act : Act) : Decidable (DispatchesLive s act) := inferInstanceAs (Decidable (∀ p ∈ _, _))

/-- The objects whose events the step takes from the kernel. -/
def delivered (s : Sys) (act : Act) : List Ptr :=
  match act with
  | .epollPwait (.ok fds) => (deliver s.host fds).elim [] objectsOf
  | _ => []

/-- The objects of a new batch are in the map, and none is removed before its event is dispatched. -/
def KeepsPending (s : Sys) (act : Act) : Prop :=
  (∀ p ∈ s.delivered act, s.host.holds p) ∧ ∀ p ∈ s.removed act, p ∉ s.view.pending

instance (s : Sys) (act : Act) : Decidable (KeepsPending s act) := inferInstanceAs (Decidable (_ ∧ ∀ p ∈ _, _))

theorem pending_new {s next : Sys} {act : Act} (taken : s.step act = some next) {p : Ptr} (member : p ∈ next.view.pending) :
    p ∈ s.view.pending ∨ p ∈ s.delivered act := by
  cases step_taken taken with
  | worker act host worker idle move =>
    change p ∈ objectsOf worker.place.rest at member
    have flow := move.flow
    generalize at_w : s.worker = w at flow
    have kept (place : worker.place.rest = w.place.rest) : p ∈ s.view.pending := by
      rw [place] at member
      simpa [view,at_w] using member
    cases flow with
    | interrupted code => simp [Worker.place,Place.rest,objectsOf] at member
    | delivered fds batch found =>
      right
      change p ∈ (deliver s.host fds).elim [] objectsOf
      rw [found]
      exact member
    | batchEnd bRun => cases bRun <;> simp [Worker.place,Place.rest,objectsOf] at member
    | cmdEvent bRun rest ev ptr input =>
      left
      simpa [view,at_w,Worker.place,Place.rest,objectsOf,ptr,PVOID.object?] using member
    | otherEvent bRun later rest ev worker other place =>
      left
      rw [place] at member
      change p ∈ objectsOf s.worker.place.rest
      rw [at_w]
      obtain ⟨found,at_found,object⟩ := List.mem_filterMap.mp member
      exact List.mem_filterMap.mpr ⟨found,List.mem_cons_of_mem ev at_found,object⟩
    | commandsDone count b finished => exact .inl (kept rfl)
    | execute count b cmd queue host worker front left place same => exact .inl (kept (by rw [place]; rfl))
    | popCommand count b => exact .inl (kept rfl)
    | inside _ _ _ _ place pushes => exact .inl (kept (by rw [place]))
  | _ => exact .inl member

theorem pending_left {s next : Sys} {act : Act} (taken : s.step act = some next) {p : Ptr} (member : p ∈ s.view.pending) :
    p ∈ next.view.pending ∨ s.dispatched act = some p := by
  cases step_taken taken with
  | worker act host worker idle move =>
    change p ∈ objectsOf s.worker.place.rest at member
    change p ∈ objectsOf worker.place.rest ∨ _
    have flow := move.flow
    generalize at_w : s.worker = w at flow member
    cases flow with
    | interrupted code => simp [Worker.place,Place.rest,objectsOf] at member
    | delivered fds batch found => simp [Worker.place,Place.rest,objectsOf] at member
    | batchEnd bRun => simp [Worker.place,Place.rest,objectsOf] at member
    | cmdEvent bRun rest ev ptr input =>
      left
      simpa [Worker.place,Place.rest,objectsOf,ptr,PVOID.object?] using member
    | otherEvent bRun later rest ev worker other place =>
      rw [place]
      obtain ⟨found,at_found,object⟩ := List.mem_filterMap.mp member
      rcases List.mem_cons.mp at_found with rfl | later
      · right
        simp [dispatched,at_w,object]
      · exact .inl (List.mem_filterMap.mpr ⟨found,later,object⟩)
    | commandsDone count b finished => exact .inl member
    | execute count b cmd queue host worker front left place same =>
      left
      rw [place]
      exact member
    | popCommand count b => exact .inl member
    | inside _ _ _ _ place pushes =>
      left
      rwa [place]
  | _ => exact .inl member

theorem removed_role {s next : Sys} {act : Act} (taken : s.step act = some next) {p : Ptr} {sock : SOCKET}
    (free : s.view.role = .free) (removing : next.view.role = .removing .deleteFD p sock) : s.removed act = some p := by
  cases step_taken taken with
  | worker act host worker idle move =>
    obtain ⟨count,b,cmd,queue,object,at_w,rfl,front,left,kind,found,live,valid,_⟩ := move.starts_remove removing
    simp [removed,at_w,front,left,kind,found,Host.isValid,live,valid]
  | _ => exact absurd (free.symm.trans removing) (by simp)

theorem removed_free {s : Sys} {act : Act} {p : Ptr} (removed : s.removed act = some p) : s.view.role = .free := by
  unfold Sys.removed at removed
  split at removed
  · rename_i at_w
    simp [view,at_w,Worker.role]
  · simp at removed

theorem removed_next {s next : Sys} {act : Act} (taken : s.step act = some next) {p : Ptr} (removed : s.removed act = some p) :
    (∃ sock, next.view.role = .removing .deleteFD p sock) ∧ next.view.pending = s.view.pending := by
  obtain ⟨h,w,callers,stopCalled⟩ := s
  cases step_taken taken with
  | worker act host worker idle move =>
    cases move with
    | commandsDone count b finished =>
      rcases finished with empty | spent
      · simp [Sys.removed,show h.cmdQueue = [] from empty] at removed
      · cases queue : h.cmdQueue <;> simp [Sys.removed,queue,spent] at removed
    | sendCommand count b cmd queue q front left kind found =>
      simp [Sys.removed,show h.cmdQueue = cmd::queue from front,kind] at removed
    | ignored count b cmd queue front left none =>
      simp only [Sys.removed,show h.cmdQueue = cmd::queue from front] at removed
      split at removed
      · rename_i guard
        obtain ⟨found,valid⟩ := Option.filter_eq_some_iff.mp removed
        simp [none guard.2 p found] at valid
      · simp at removed
    | disconnected count b cmd queue q object front left kind found live valid =>
      have found : h.findSocketObject cmd.fd = some q := found
      simp only [Sys.removed,show h.cmdQueue = cmd::queue from front,found] at removed
      split at removed
      · obtain ⟨rfl,_⟩ : q = p ∧ _ := by simpa [Option.filter_eq_some_iff] using removed
        exact ⟨⟨object.socketId,rfl⟩,rfl⟩
      · simp at removed
    | _ => simp [Sys.removed] at removed
  | sent act t sock addr raw buf q object sends kind idle found live valid room =>
    cases act <;> simp [message] at sends <;> cases w <;> simp [Sys.removed] at removed
  | sendRefused act sends => cases act <;> simp [message] at sends <;> cases w <;> simp [Sys.removed] at removed
  | _ => cases w <;> simp [Sys.removed] at removed

theorem keeps_live {s next : Sys} {act : Act} (inv : Inv s) (keeps : KeepsPending s act) (taken : s.step act = some next)
    (live : s.view.Live) : next.view.Live := by
  refine (view_step inv.control taken).live inv.sound inv.entered (fun empty p member => ?_) (fun p sock removing free => ?_) live
  · rcases pending_new taken member with old | told
    · simp [empty] at old
    · exact (s.host.holds_iff p).mp (keeps.1 p told)
  · exact keeps.2 p (removed_role taken free removing)

theorem live_dispatches {s : Sys} (live : s.view.Live) (act : Act) : DispatchesLive s act := by
  intro p dispatched
  rw [Host.holds_iff]
  unfold Sys.dispatched at dispatched
  split at dispatched
  · rename_i bRun ev rest at_w
    refine (live p ?_).1
    simp [view,at_w,Worker.place,Place.rest,objectsOf,show ev.ptr.object? = some p from dispatched]
  · split at dispatched
    · split at dispatched
      · exact ⟨_,dispatched⟩
      · simp at dispatched
    · simp at dispatched
  · simp at dispatched

/-- An object that has left the map while its event waits is dispatched before the batch ends. -/
theorem doomed_dispatched {s final : Sys} {acts : List Act} {p : Ptr} (inv : Inv s) (member : p ∈ s.view.pending)
    (doomed : s.view.Doomed p) (run : Transition.exec Sys.step s acts = some final) (ended : final.view.pending = []) :
    ¬ Transition.Along Sys.step DispatchesLive s acts := by
  induction acts generalizing s with
  | nil =>
    obtain rfl : s = final := Option.some.inj run
    simp [ended] at member
  | cons act rest ih =>
    intro along
    obtain ⟨next,taken,run⟩ := Transition.exec_cons_success run
    rcases pending_left taken member with still | dispatched
    · exact ih (inv.step taken) still ((view_step inv.control taken).doomed inv.sound inv.entered member doomed) run
        (along.2 next taken)
    · obtain ⟨sock,found⟩ := (s.host.holds_iff p).mp (along.1 p dispatched)
      rcases doomed with ⟨missing,_⟩ | ⟨stage,sock,removing⟩
      · exact missing sock found
      · unfold Sys.dispatched at dispatched
        split at dispatched
        · rename_i at_w
          simp [view,at_w,Worker.role] at removing
        · rename_i at_w
          simp [view,at_w,Worker.role] at removing
        · simp at dispatched

theorem delivered_next {s next : Sys} {act : Act} (taken : s.step act = some next) {p : Ptr} (told : p ∈ s.delivered act) :
    p ∈ next.view.pending ∧ next.callers = s.callers ∧ next.host.sockObjectMap = s.host.sockObjectMap ∧
      ∃ fd, s.host.table.registered fd = some p := by
  obtain ⟨h,w,callers,stopCalled⟩ := s
  cases step_taken taken with
  | worker act host worker idle move =>
    cases move with
    | delivered fds batch found filled none_left =>
      have member : p ∈ objectsOf batch := by simpa [Sys.delivered,show deliver h fds = some batch from found] using told
      obtain ⟨ev,at_ev,object⟩ := List.mem_filterMap.mp member
      obtain ⟨fd,_,registered,_⟩ := deliver_mem found at_ev
      have registered : h.interest fd.1 = some ev.ptr := registered
      exact ⟨member,rfl,rfl,fd.1,by simp [Host.table,registered,object]⟩
    | _ => simp [Sys.delivered] at told
  | sent act t sock addr raw buf q object sends => cases act <;> simp [message] at sends <;> simp [Sys.delivered] at told
  | sendRefused act sends => cases act <;> simp [message] at sends <;> simp [Sys.delivered] at told
  | _ => simp [Sys.delivered] at told

/-- A step that breaks the condition leaves a pending object that is lost to the map. -/
theorem breaks_doomed {s next : Sys} {act : Act} (inv : Inv s) (taken : s.step act = some next)
    (breaks : ¬ KeepsPending s act) : ∃ p ∈ next.view.pending, next.view.Doomed p := by
  by_cases held : ∀ p ∈ s.delivered act, s.host.holds p
  · have removes : ∃ p ∈ s.removed act, p ∈ s.view.pending := by
      by_contra none_removed
      exact breaks ⟨held,fun p removed member => none_removed ⟨p,removed,member⟩⟩
    obtain ⟨p,removed,member⟩ := removes
    obtain ⟨⟨sock,removing⟩,pending⟩ := removed_next taken removed
    exact ⟨p,pending ▸ member,.inr ⟨_,sock,removing⟩⟩
  · simp only [not_forall] at held
    obtain ⟨p,told,missing⟩ := held
    obtain ⟨member,callers,map,fd,registered⟩ := delivered_next taken told
    refine ⟨p,member,.inl ⟨fun sock at_sock => missing ?_,fun task at_work making => ?_⟩⟩
    · refine (s.host.holds_iff p).mpr ⟨sock,?_⟩
      simpa [view,Host.table,Host.findSocketObject,map] using at_sock
    · have at_work : task ∈ s.view.tasks := by simpa [view,callers] using at_work
      exact inv.sound.making task at_work p making (.inl (.inr (.inl ⟨fd,registered⟩)))

/-- Every pointer passed to `ProcessIo` is in the map exactly if no object with an event
still to be dispatched has been removed. -/
theorem dispatches_live_iff {config : Config} {acts : List Act} {s : Sys} (run : Run config acts s)
    (between : s.worker = .epollPwait ∨ s.worker = .exited) :
    Transition.Along Sys.step DispatchesLive config.started acts ↔
    Transition.Along Sys.step KeepsPending config.started acts := by
  have ended : s.view.pending = [] := by rcases between with at_w | at_w <;> simp [view,at_w,Worker.place,Place.rest,objectsOf]
  constructor
  · have all {start : Sys} (acts : List Act) (inv : Inv start) (run : Transition.exec Sys.step start acts = some s)
        (along : Transition.Along Sys.step DispatchesLive start acts) : Transition.Along Sys.step KeepsPending start acts := by
      induction acts generalizing start with
      | nil => trivial
      | cons act rest ih =>
        obtain ⟨next,taken,run⟩ := Transition.exec_cons_success run
        refine ⟨?_,fun other same => ?_⟩
        · by_contra breaks
          obtain ⟨p,member,doomed⟩ := breaks_doomed inv taken breaks
          exact doomed_dispatched (inv.step taken) member doomed run ended (along.2 next taken)
        · obtain rfl : next = other := Option.some.inj (taken.symm.trans same)
          exact ih (inv.step taken) run (along.2 next taken)
    exact all acts (started_inv config) run
  · intro keeps
    refine Transition.along_of_invariant (I := fun s => Inv s ∧ s.view.Live) ?_ ?_ keeps ⟨started_inv config,?_⟩ run
    · exact fun _ _ _ keeps both taken => ⟨both.1.step taken,keeps_live both.1 keeps taken both.2⟩
    · exact fun _ act _ _ both _ => live_dispatches both.2 act
    · simp [View.Live,view,Config.started,Worker.place,Place.rest,objectsOf]

/-- The peer of one connection becomes readable while a `Disconnect` of it is queued or not. -/
def readableConnection (disconnects : Nat) (batch : List (FD × UInt32)) (handled : Nat) : List Act :=
  connectionBurst 1 ++ (List.replicate disconnects [.disconnect 1 7,.caller 1 .done,.caller 1 .done]).flatten ++
    .epollPwait (.ok batch)::List.replicate handled .worker ++ [.beforeIo (.ok 0) 0,.readyRead 0]

/-- Two connections are readable, and the batch has a `Disconnect` of the first between their events. -/
def readableConnections : List Act :=
  connectionBurst 1 ++ .arrive 0::acceptOne 8 ++ [.disconnect 1 8,.caller 1 .done,.caller 1 .done,
    .epollPwait (.ok [(8,epollin),(5,epollin),(7,epollin)]),.worker,.beforeIo (.ok 0) 0,.readyRead 0,.read (.error 11) [] 0] ++
    List.replicate 9 .worker ++ [.beforeIo (.ok 0) 0,.readyRead 0,.read (.error 11) [] 0,.worker]

theorem readable_dispatches_live :
    ∃ s, Run (.plain .tcpServer 2) readableConnections s ∧ s.host.sockObjectMap.keys = [7] ∧
      Transition.Along Sys.step DispatchesLive (Config.plain .tcpServer 2).started readableConnections := by
  obtain ⟨s,run,waiting,keys⟩ := run_reaches (.plain .tcpServer 2) readableConnections
    (fun s => s.worker = .epollPwait ∧ s.host.sockObjectMap.keys = [7]) (by decide +kernel)
  exact ⟨s,run,keys,(dispatches_live_iff run (.inl waiting)).mpr (by decide +kernel)⟩

/-- The command of the batch deletes the object whose event comes after it. -/
theorem readable_dispatches_stale :
    ∃ s, Run (.plain .tcpServer 2) (readableConnection 1 [(5,epollin),(7,epollin)] 9 ++ [.worker]) s ∧
      s.worker = .epollPwait ∧ ¬ Transition.Along Sys.step DispatchesLive (Config.plain .tcpServer 2).started
        (readableConnection 1 [(5,epollin),(7,epollin)] 9 ++ [.worker]) := by
  obtain ⟨s,run,waiting⟩ := run_reaches (.plain .tcpServer 2)
    (readableConnection 1 [(5,epollin),(7,epollin)] 9 ++ [.worker]) (fun s => s.worker = .epollPwait) (by decide +kernel)
  exact ⟨s,run,waiting,by decide +kernel⟩

end Sys

end LightServer
