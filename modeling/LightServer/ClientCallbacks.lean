import LightServer.Dispatch

/-! The callbacks of a `TcpClient`. A connection that was made at once is announced by the
thread that made it, after the worker has been given its socket. -/
namespace LightServer

/-- The connection the thread is still to announce. -/
def Task.announces : Task → Option Ptr
  | .counting _ p notify | .inserting _ p notify | .adding _ p notify => if notify then some p else none
  | .announcing _ p => some p
  | .other | .connecting => none

theorem Task.announces_object {task : Task} {p : Ptr} (announces : task.announces = some p) : task.object = some p := by
  cases task <;> simp_all [Task.announces,Task.object]

@[simp] theorem announces_afterAdd (notify : Bool) (sock : SOCKET) (p : Ptr) :
    (afterAdd notify sock p).announces = if notify then some p else none := by
  cases notify <;> rfl

namespace Table

/-- How far the callbacks about a connection have come. -/
def Stage (T : Table) (p : Ptr) (stage : Session.Stage) : Prop := Session.replay false (T.said (.object p)) = some stage

theorem stage_record {T : Table} {p : Ptr} {stage next : Session.Stage} {call : Session.Call} (sock : SOCKET)
    (before : T.Stage p stage)
    (allowed : Session.advance false stage call = some next) : (T.record p sock call).Stage p next := by
  have selected : (About.object p).selects p sock = true := by simp [About.selects]
  rw [Stage,said_record,if_pos selected,Session.replay_append,before]
  exact allowed

theorem stage_other {T : Table} {p q : Ptr} (sock : SOCKET) (call : Session.Call) (other : q ≠ p) (stage : Session.Stage) :
    (T.record p sock call).Stage q stage ↔ T.Stage q stage := by
  rw [Stage,Stage,said_other (by simp [About.selects,Ne.symm other])]

theorem stage_fresh {T : Table} {p : Ptr} (unheard : ∀ entry ∈ T.calls, entry.1 ≠ p) : T.Stage p .fresh := by
  rw [Stage,said_nothing unheard]
  rfl

theorem Work.calls {T T' : Table} {role role' : Role} (work : Work T role T' role') :
    T'.calls = T.calls ∨ ∃ entry, T'.calls = T.calls ++ [entry] := by
  have closed {T' : Table} (closes : T.Closes T') : T'.calls = T.calls := by
    obtain ⟨_,_,rfl,_,_⟩ := closes
    rfl
  cases work with
  | connect => exact .inr ⟨_,rfl⟩
  | doRead => exact .inr ⟨_,rfl⟩
  | announce => exact .inr ⟨_,rfl⟩
  | disconnect => exact .inr ⟨_,rfl⟩
  | closeAccepted sock => exact .inl (closed (T.closes_closeFD sock))
  | removeClose p sock => exact .inl (closed (T.closes_closeFD sock))
  | _ => exact .inl rfl

theorem Call.calls {T T' : Table} {exited : Bool} {task task' : Task} (call : Call T exited task T' task') :
    T'.calls = T.calls ∨ ∃ p sock, T'.calls = T.calls ++ [(p,sock,.opened)] := by
  have closed {T' : Table} (closes : T.Closes T') : T'.calls = T.calls := by
    obtain ⟨_,_,rfl,_,_⟩ := closes
    rfl
  cases call with
  | announce sock p => exact .inr ⟨p,sock,rfl⟩
  | closeFD sock => exact .inl (closed (T.closes_closeFD sock))
  | closeListenSocket => exact .inl (closed (T.closes_closeFD T.listenSocket))
  | closeFds _ finished closes => exact .inl (closed closes)
  | _ => exact .inl rfl

end Table

namespace View

/-- Some thread is still to announce the connection. -/
def Announced (v : View) (p : Ptr) : Prop := ∃ task ∈ v.tasks, task.announces = some p

/-- What holds of the table of a `TcpClient` while every connection is announced before it is used. -/
structure Calling (v : View) : Prop where
  kind : v.table.kind = .tcpClient
  role : v.role ≠ .accepting ∧ (∀ sock, v.role ≠ .holding sock) ∧ ∀ p sock, v.role ≠ .announcing p sock
  replayed : ∀ p, ∃ stage, v.table.Stage p stage
  announced : ∀ p, v.Announced p → v.table.Stage p .fresh ∧ ∀ core ∈ v.table.core p, core.2.2 = true
  quiet : ∀ task ∈ v.tasks, ∀ p, task.making = some p → task.announces = none → ∀ core ∈ v.table.core p, core.2.2 = false
  unconnected : ∀ p sock valid, v.table.core p = some (sock,valid,false) → v.table.Stage p .fresh
  live : ∀ p sock, v.table.core p = some (sock,true,true) → ¬ v.Announced p → v.table.Stage p .live
  reading : ∀ p sock, v.role = .reading p sock → v.table.core p = some (sock,true,true)
  handling : ∀ p, v.role = .handling p → ∀ core ∈ v.table.core p, core.2.2 = true

theorem started_calling (config : Config) (client : config.kind = .tcpClient) : Calling config.started.view := by
  have idle (task) (member : task ∈ config.started.view.tasks) : task = .other := by
    simp only [Sys.view,Config.started,List.map_replicate,List.mem_replicate] at member
    exact member.2
  have empty (p : Ptr) : config.started.view.table.core p = none := rfl
  refine ⟨client,by simp [Sys.view,Config.started,Worker.role],fun p => ⟨.fresh,rfl⟩,fun p announced => ?_,
    fun task member p making => ?_,fun p sock valid core => by simp [empty p] at core,
      fun p sock core => by simp [empty p] at core,
    by simp [Sys.view,Config.started,Worker.role],by simp [Sys.view,Config.started,Worker.role]⟩
  · obtain ⟨task,member,announces⟩ := announced
    simp [idle task member,Task.announces] at announces
  · simp [idle task member,Task.making] at making

section Calling

variable {T T' : Table} {role role' : Role} {pending pending' : List Ptr} {exited exited' : Bool} {tasks : List Task}

private theorem Calling.moves (calling : Calling ⟨T,role,pending,exited,tasks⟩)
    (away : role' ≠ .accepting ∧ (∀ sock, role' ≠ .holding sock) ∧ ∀ p sock, role' ≠ .announcing p sock)
    (reading : ∀ p sock, role' = .reading p sock → T.core p = some (sock,true,true))
    (handling : ∀ p, role' = .handling p → ∀ core ∈ T.core p, core.2.2 = true) : Calling ⟨T,role',pending',exited',tasks⟩ :=
  ⟨calling.kind,away,calling.replayed,calling.announced,calling.quiet,calling.unconnected,calling.live,reading,handling⟩

private theorem Calling.fewer (calling : Calling ⟨T,role,pending,exited,tasks⟩) (kind : T'.kind = T.kind)
    (calls : T'.calls = T.calls)
    (core : ∀ p, T'.core p = T.core p ∨ T'.core p = none ∧ ∀ sock, role ≠ .reading p sock) :
    Calling ⟨T',role,pending,exited,tasks⟩ := by
  have stage (p : Ptr) (stage : Session.Stage) : T'.Stage p stage ↔ T.Stage p stage := by
    simp only [Table.Stage,Table.said,calls]
  have old {p : Ptr} {c : SOCKET × Bool × Bool} (live : T'.core p = some c) : T.core p = some c := by
    rcases core p with same | ⟨gone,_⟩
    · exact same ▸ live
    · simp [gone] at live
  refine ⟨kind.trans calling.kind,calling.role,fun p => ?_,fun p announced => ?_,fun task member p making silent c live => ?_,
    fun p sock valid live => ?_,fun p sock live silent => ?_,fun p sock now => ?_,fun p now c live => ?_⟩
  · simpa only [stage] using calling.replayed p
  · obtain ⟨fresh,connected⟩ := calling.announced p announced
    exact ⟨(stage p _).mpr fresh,fun c live => connected c (old live)⟩
  · exact calling.quiet task member p making silent c (old live)
  · exact (stage p _).mpr (calling.unconnected p sock valid (old live))
  · exact (stage p _).mpr (calling.live p sock (old live) silent)
  · rcases core p with same | ⟨_,away⟩
    · exact same.trans (calling.reading p sock now)
    · exact absurd now (away sock)
  · exact calling.handling p now c (old live)

private theorem Calling.closed (calling : Calling ⟨T,role,pending,exited,tasks⟩) (closes : T.Closes T') :
    Calling ⟨T',role,pending,exited,tasks⟩ := by
  obtain ⟨_,_,rfl,_,_⟩ := closes
  exact calling.fewer rfl rfl (fun _ => .inl rfl)

/-- A connection's callbacks go on; nothing happens to the other ones. -/
private theorem Calling.turns {tasks' : List Task} {p : Ptr} {next : Session.Stage}
    (calling : Calling ⟨T,role,pending,exited,tasks⟩)
    (kind : T'.kind = T.kind) (others : ∀ q, q ≠ p → T'.core q = T.core q ∧ ∀ stage, T'.Stage q stage ↔ T.Stage q stage)
    (stage : T'.Stage p next) (live : ∀ sock, T'.core p = some (sock,true,true) → next = .live)
    (connected : ∀ core ∈ T'.core p, core.2.2 = true) (silent : ∀ task ∈ tasks', task.announces ≠ some p)
    (announced : ∀ q, q ≠ p → (Announced ⟨T',role',pending,exited,tasks'⟩ q ↔ Announced ⟨T,role,pending,exited,tasks⟩ q))
    (making : ∀ task ∈ tasks', ∀ q, task.making = some q → task ∈ tasks ∧ q ≠ p)
    (away : role' ≠ .accepting ∧ (∀ sock, role' ≠ .holding sock) ∧ ∀ p sock, role' ≠ .announcing p sock)
    (reading : ∀ q sock, role' = .reading q sock → T'.core q = some (sock,true,true))
    (handling : ∀ q, role' = .handling q → ∀ core ∈ T'.core q, core.2.2 = true) : Calling ⟨T',role',pending,exited,tasks'⟩ := by
  have unannounced : ¬ Announced ⟨T',role',pending,exited,tasks'⟩ p := fun ⟨task,member,announces⟩ => silent task member announces
  refine ⟨kind.trans calling.kind,away,fun q => ?_,fun q announces => ?_,fun task member q makes quiet => ?_,
    fun q sock valid core => ?_,
    fun q sock core quiet => ?_,reading,handling⟩
  · by_cases same : q = p
    · exact same ▸ ⟨next,stage⟩
    · obtain ⟨before,replayed⟩ := calling.replayed q
      exact ⟨before,((others q same).2 _).mpr replayed⟩
  · have differs : q ≠ p := fun same => unannounced (same ▸ announces)
    obtain ⟨fresh,made⟩ := calling.announced q ((announced q differs).mp announces)
    exact ⟨((others q differs).2 _).mpr fresh,(others q differs).1 ▸ made⟩
  · obtain ⟨old,differs⟩ := making task member q makes
    exact (others q differs).1 ▸ calling.quiet task old q makes quiet
  · by_cases same : q = p
    · subst same
      simpa using connected _ core
    · obtain ⟨kept,stages⟩ := others q same
      exact (stages _).mpr (calling.unconnected q sock valid (kept ▸ core))
  · by_cases same : q = p
    · subst same
      exact live sock core ▸ stage
    · obtain ⟨kept,stages⟩ := others q same
      exact (stages _).mpr (calling.live q sock (kept ▸ core) (mt (announced q same).mpr quiet))

private theorem Calling.work (calling : Calling ⟨T,role,pending,false,tasks⟩) (sound : Sound ⟨T,role,pending,false,tasks⟩)
    (reads : ∀ p sock, role = .reading p sock → T'.calls = T.calls ++ [(p,sock,.used)] →
    ¬ Announced ⟨T,role,pending,false,tasks⟩ p)
    (removes : ∀ p sock, role = .free → role' = .removing .deleteFD p sock →
      ¬ Announced ⟨T,role,pending,false,tasks⟩ p ∧ ∀ core ∈ T.core p, core.2.2 = true)
    (work : Table.Work T role T' role') : Calling ⟨T',role',pending,false,tasks⟩ := by
  have hidden {p : Ptr} (shown : T.Shows role p) (task) (member : task ∈ tasks) (q : Ptr) (makes : task.making = some q) :
      task ∈ tasks ∧ q ≠ p := by
    refine ⟨member,?_⟩
    rintro rfl
    exact sound.making task member q makes (.inl shown)
  have others {p : Ptr} (core : Option (SOCKET × Bool × Bool)) (sock : SOCKET) (call : Session.Call) (q : Ptr) (differs : q ≠ p) :
      ((T.setCore p core).record p sock call).core q = T.core q ∧
        ∀ stage, ((T.setCore p core).record p sock call).Stage q stage ↔ T.Stage q stage :=
    ⟨by simp [Table.record,Table.setCore,differs],fun stage => Table.stage_other sock call differs stage⟩
  cases work with
  | rest _ _ settled later =>
    rcases later with rfl | rfl | ⟨p,sock,rfl,rfl⟩
    · exact calling
    · exact calling.moves (by simp) (by simp) (by simp)
    · apply calling.moves (by simp) (by simp)
      intro q now core live
      obtain rfl := Role.handling.inj now
      obtain rfl : _ = core := Option.some.inj ((calling.reading p sock rfl).symm.trans live)
      rfl
  | handle p ready =>
    apply calling.moves (by simp) (by simp)
    intro q now core live
    obtain rfl := Role.handling.inj now
    obtain ⟨sock,valid,made⟩ := ready calling.kind
    obtain rfl : _ = core := Option.some.inj (made.symm.trans live)
    rfl
  | connect p sock _ kind core later =>
    have silent (task) (member : task ∈ tasks) : task.announces ≠ some p := fun announces => by
      simpa using (calling.announced p ⟨task,member,announces⟩).2 _ core
    have now : ((T.setCore p (some (sock,true,true))).record p sock .opened).core p = some (sock,true,true) := by
      simp [Table.record,Table.setCore]
    have fresh : T.Stage p .fresh := calling.unconnected p sock true core
    refine calling.turns rfl (others _ sock .opened) (Table.stage_record sock (T := T.setCore p _) fresh rfl)
      (fun _ _ => rfl) ?_ silent
      (fun _ _ => Iff.rfl) (hidden (.inr (.inr rfl))) ?_ ?_ ?_
    · rw [now]
      simp
    · rcases later with rfl | rfl <;> simp
    · rcases later with rfl | rfl <;> simp
    · rcases later with rfl | rfl
      · simp
      · intro q handles
        obtain rfl := Role.handling.inj handles
        rw [now]
        simp
  | startRead p sock connected core =>
    refine calling.moves (by simp) (fun q k now => ?_) (by simp)
    obtain ⟨rfl,rfl⟩ := Role.reading.inj now
    obtain rfl : connected = true := calling.handling p rfl _ core
    exact core
  | doRead p sock =>
    have core := calling.reading p sock rfl
    have silent := reads p sock rfl rfl
    have stage : (T.record p sock .used).Stage p .live := Table.stage_record sock (calling.live p sock core silent) rfl
    refine calling.turns rfl (fun q differs => ⟨rfl,Table.stage_other sock .used differs⟩) stage (fun _ _ => rfl)
      (fun c now => ?_)
      (fun task member announces => silent ⟨task,member,announces⟩) (fun _ _ => Iff.rfl) (hidden (.inr (.inr rfl))) (by simp)
      calling.reading (by simp)
    obtain rfl : _ = c := Option.some.inj (core.symm.trans now)
    rfl
  | listen kind => exact absurd (calling.kind.symm.trans kind) (by simp)
  | accept sock nonneg unused listening => exact absurd rfl calling.role.1
  | add sock registered absent registers => exact absurd rfl (calling.role.2.1 sock)
  | leak sock core present => exact absurd rfl (calling.role.2.1 sock)
  | closeAccepted sock => exact absurd rfl (calling.role.2.1 sock)
  | announce p sock => exact absurd rfl (calling.role.2.2 p sock)
  | disconnect fd p sock connected found core =>
    obtain ⟨silent,made⟩ := removes p sock rfl rfl
    obtain rfl : connected = true := made _ core
    have now : ((T.setCore p (some (sock,false,true))).record p sock .closed).core p = some (sock,false,true) := by
      simp [Table.record,Table.setCore]
    have live : T.Stage p .live := calling.live p sock core silent
    refine calling.turns rfl (others _ sock .closed) (Table.stage_record sock (T := T.setCore p _) live rfl)
      (fun k valid => ?_) ?_ (fun task member announces => silent ⟨task,member,announces⟩) (fun _ _ => Iff.rfl)
      (hidden (.inl ⟨fd,found⟩)) (by simp) (by simp) (by simp)
    · simp [now] at valid
    · rw [now]
      simp
  | removeFD p sock => exact (calling.closed (T.closes_unregister sock)).moves (by simp) (by simp) (by simp)
  | removeClose p sock => exact (calling.closed (T.closes_closeFD sock)).moves (by simp) (by simp) (by simp)
  | removeDelete p sock =>
    have deleted : Calling ⟨T.setCore p none,.removing .delete p sock,pending,false,tasks⟩ := by
      refine calling.fewer rfl rfl (fun q => ?_)
      by_cases same : q = p
      · exact .inr ⟨by simp [Table.setCore,same],by simp⟩
      · exact .inl (by simp [Table.setCore,same])
    exact deleted.moves (by simp) (by simp) (by simp)
  | removeErase p sock => exact Calling.moves (calling.fewer rfl rfl (fun _ => .inl rfl)) (by simp) (by simp) (by simp)

private theorem Calling.task {t : Nat} {task task' : Task} (calling : Calling ⟨T,role,pending,exited,tasks⟩)
    (found : tasks[t]? = some task)
    (announces : task'.announces = task.announces) (making : ∀ p, task'.making = some p → task.making = some p) :
    Calling ⟨T,role,pending,exited,tasks.set t task'⟩ := by
  have member := List.mem_of_getElem? found
  have before (p : Ptr) (now : Announced ⟨T,role,pending,exited,tasks.set t task'⟩ p) :
      Announced ⟨T,role,pending,exited,tasks⟩ p := by
    obtain ⟨job,listed,same⟩ := now
    rcases List.mem_or_eq_of_mem_set listed with old | rfl
    · exact ⟨job,old,same⟩
    · exact ⟨task,member,announces ▸ same⟩
  refine ⟨calling.kind,calling.role,calling.replayed,fun p now => calling.announced p (before p now),
    fun job listed p makes silent => ?_,calling.unconnected,
    fun p sock core silent => calling.live p sock core (mt (fun was => ?_) silent),calling.reading,calling.handling⟩
  · rcases List.mem_or_eq_of_mem_set listed with old | rfl
    · exact calling.quiet job old p makes silent
    · exact calling.quiet task member p (making p makes) (announces ▸ silent)
  · obtain ⟨job,listed,same⟩ := was
    obtain ⟨u,at_u⟩ := List.mem_iff_getElem?.mp listed
    by_cases equal : t = u
    · subst equal
      obtain rfl : task = job := Option.some.inj (found.symm.trans at_u)
      exact ⟨task',List.mem_set (List.getElem?_eq_some_iff.mp found).1 _,announces.trans same⟩
    · exact ⟨job,List.mem_of_getElem? ((List.getElem?_set_ne equal).trans at_u),same⟩

private theorem Calling.call {t : Nat} {task task' : Task} (calling : Calling ⟨T,role,pending,exited,tasks⟩)
    (sound : Sound ⟨T,role,pending,exited,tasks⟩) (found : tasks[t]? = some task) (call : Table.Call T exited task T' task') :
    Calling ⟨T',role,pending,exited,tasks.set t task'⟩ := by
  have member := List.mem_of_getElem? found
  cases call with
  | rest _ => exact calling.task found rfl (fun _ => id)
  | fail => exact calling.task found rfl (fun _ => id)
  | connect kind => exact calling.task found rfl (fun _ => id)
  | openFD sock unused =>
    have opened : Calling ⟨T.openFD sock,role,pending,exited,tasks⟩ := calling.fewer rfl rfl (fun _ => .inl rfl)
    exact opened.task found rfl (fun _ => id)
  | closeFD sock => exact (calling.closed (T.closes_closeFD sock)).task found rfl (fun _ => id)
  | prepare sock valid notify =>
    have below {q : Ptr} (object : role.object = some q) : q ≠ T.nextPtr := (sound.visible q (.inl (.inr (.inr object)))).ne
    have made : (T.alloc (invalidSocket,valid,notify)).core T.nextPtr = some (invalidSocket,valid,notify) := by
      simp [Table.alloc,Table.setCore]
    have old {q : Ptr} (differs : q ≠ T.nextPtr) : (T.alloc (invalidSocket,valid,notify)).core q = T.core q := by
      simp [Table.alloc,Table.setCore,differs]
    have fresh : T.Stage T.nextPtr .fresh := Table.stage_fresh (fun entry listed => (sound.calls entry listed).ne)
    have jobs {job : Task} (listed : job ∈ tasks.set t (.counting sock T.nextPtr notify)) {q : Ptr}
        (object : job.object = some q) :
        job ∈ tasks ∧ q ≠ T.nextPtr ∨ job = .counting sock T.nextPtr notify ∧ q = T.nextPtr := by
      rcases List.mem_or_eq_of_mem_set listed with before | rfl
      · exact .inl ⟨before,(sound.object job before q object).ne⟩
      · exact .inr ⟨rfl,(Option.some.inj object).symm⟩
    refine ⟨calling.kind,calling.role,calling.replayed,?_,?_,?_,?_,?_,?_⟩
    · rintro q ⟨job,listed,announces⟩
      rcases jobs listed (Task.announces_object announces) with ⟨before,differs⟩ | ⟨rfl,rfl⟩
      · obtain ⟨first,connected⟩ := calling.announced q ⟨job,before,announces⟩
        exact ⟨first,fun core live => connected core ((old differs) ▸ live)⟩
      · refine ⟨fresh,fun core live => ?_⟩
        obtain rfl : _ = core := Option.some.inj (made.symm.trans live)
        simpa [Task.announces] using announces
    · intro job listed q makes silent core live
      rcases jobs listed (Task.making_object makes) with ⟨before,differs⟩ | ⟨rfl,rfl⟩
      · exact calling.quiet job before q makes silent core ((old differs) ▸ live)
      · obtain rfl : _ = core := Option.some.inj (made.symm.trans live)
        simpa [Task.announces] using silent
    · intro q k valid live
      by_cases new : q = T.nextPtr
      · exact new ▸ fresh
      · exact calling.unconnected q k valid ((old new) ▸ live)
    · intro q k live silent
      by_cases new : q = T.nextPtr
      · subst new
        obtain ⟨_,_,rfl⟩ : invalidSocket = k ∧ valid = true ∧ notify = true := by simpa [made] using live
        exact absurd ⟨_,List.mem_set (List.getElem?_eq_some_iff.mp found).1 _,by simp [Task.announces]⟩ silent
      · refine calling.live q k ((old new) ▸ live) (mt ?_ silent)
        rintro ⟨job,listed,announces⟩
        obtain ⟨u,at_u⟩ := List.mem_iff_getElem?.mp listed
        by_cases equal : t = u
        · subst equal
          obtain rfl : Task.connecting = job := Option.some.inj (found.symm.trans at_u)
          simp [Task.announces] at announces
        · exact ⟨job,List.mem_of_getElem? ((List.getElem?_set_ne equal).trans at_u),announces⟩
    · exact fun q k reads => (old (below (by rw [show role = _ from reads]; rfl))).trans (calling.reading q k reads)
    · exact fun q handles core live =>
        calling.handling q handles core ((old (below (by rw [show role = _ from handles]; rfl))) ▸ live)
  | present sock p notify at_sock => exact calling.task found (announces_afterAdd notify sock p) (by simp)
  | absent sock p notify missing => exact calling.task found rfl (fun _ => id)
  | insert sock p notify find inserts =>
    have announces : (Task.adding sock p notify).announces = (Task.inserting sock p notify).announces := rfl
    have marked (q : Ptr) (core) (live : (T.setCore p ((T.core p).map (fun core => (sock,true,core.2.2)))).core q = some core) :
        ∃ before, T.core q = some before ∧ before.2.2 = core.2.2 ∧ (q ≠ p → before = core) := by
      by_cases same : q = p
      · obtain ⟨before,was,rfl⟩ : ∃ before, T.core p = some before ∧ (sock,true,before.2.2) = core := by
          simpa [Table.setCore,same] using live
        exact ⟨before,same ▸ was,rfl,fun differs => absurd same differs⟩
      · exact ⟨core,by simpa [Table.setCore,same] using live,rfl,fun _ => rfl⟩
    refine Calling.task (T := {T.setCore p ((T.core p).map (fun core => (sock,true,core.2.2))) with find := find})
      ⟨calling.kind,calling.role,calling.replayed,fun q now => ?_,fun job listed q makes silent core live => ?_,
        fun q k valid live => ?_,
        fun q k live silent => ?_,fun q k reads => ?_,fun q handles core live => ?_⟩ found announces (by simp [Task.making])
    · obtain ⟨first,connected⟩ := calling.announced q now
      refine ⟨first,fun core live => ?_⟩
      obtain ⟨before,was,same,_⟩ := marked q core live
      exact same ▸ connected before was
    · obtain ⟨before,was,same,_⟩ := marked q core live
      exact same ▸ calling.quiet job listed q makes silent before was
    · obtain ⟨⟨k',valid',connected⟩,was,same,_⟩ := marked q _ live
      obtain rfl : connected = false := same
      exact calling.unconnected q k' valid' was
    · obtain ⟨before,was,same,kept⟩ := marked q _ live
      by_cases new : q = p
      · subst new
        have quiet : (Task.inserting sock q notify).announces = none := by
          cases notify with
          | false => rfl
          | true => exact absurd ⟨_,member,rfl⟩ silent
        exact absurd (calling.quiet _ member q rfl quiet before was) (by simp [same])
      · exact calling.live q k (kept new ▸ was) silent
    · have differs : q ≠ p := by
        rintro rfl
        exact sound.making _ member q rfl (.inl (.inr (.inr (by rw [show role = _ from reads]; rfl))))
      simpa [Table.setCore,differs] using calling.reading q k reads
    · obtain ⟨before,was,same,_⟩ := marked q core live
      exact same ▸ calling.handling q handles before was
  | addFD sock p notify registered registers =>
    have added : Calling ⟨{T with registered := registered},role,pending,exited,tasks⟩ :=
      calling.fewer rfl rfl (fun _ => .inl rfl)
    exact added.task found (announces_afterAdd notify sock p) (by simp)
  | announce sock p =>
    obtain ⟨fresh,connected⟩ := calling.announced p ⟨_,member,rfl⟩
    have foreign {job : Task} (listed : job ∈ tasks.set t .other) {q : Ptr} (object : job.object = some q) :
        job ∈ tasks ∧ q ≠ p := by
      rcases mem_of_set found listed with rfl | ⟨u,differs,at_u⟩
      · simp [Task.object] at object
      · refine ⟨List.mem_of_getElem? at_u,?_⟩
        rintro rfl
        exact differs (sound.distinct u t job _ q at_u found object rfl)
    refine calling.turns rfl (fun q differs => ⟨rfl,Table.stage_other sock .opened differs⟩) (Table.stage_record sock fresh rfl)
      (fun _ _ => rfl) connected (fun job listed announces => (foreign listed (Task.announces_object announces)).2 rfl)
      (fun q differs => ⟨?_,?_⟩) (fun job listed q makes => foreign listed (Task.making_object makes))
      calling.role calling.reading calling.handling
    · rintro ⟨job,listed,announces⟩
      exact ⟨job,(foreign listed (Task.announces_object announces)).1,announces⟩
    · rintro ⟨job,listed,announces⟩
      obtain ⟨u,at_u⟩ := List.mem_iff_getElem?.mp listed
      have other : t ≠ u := by
        rintro rfl
        obtain rfl := Option.some.inj (found.symm.trans at_u)
        exact differs (Option.some.inj announces).symm
      exact ⟨job,List.mem_of_getElem? ((List.getElem?_set_ne other).trans at_u),announces⟩
  | closeListenSocket => exact (calling.closed (T.closes_closeFD T.listenSocket)).task found rfl (fun _ => id)
  | release core registered finished fewer unregistered =>
    have free : role = .free := (sound.finished finished).1
    have released : Calling ⟨{T with find := fun _ => none, core := core, registered := registered},role,pending,exited,tasks⟩ :=
      calling.fewer rfl rfl (fun p => (fewer p).imp id (fun gone => ⟨gone.1,by simp [free]⟩))
    exact released.task found rfl (fun _ => id)
  | closeFds _ finished closes => exact (calling.closed closes).task found rfl (fun _ => id)

end Calling

theorem Step.calling {v v' : View} (step : Step v v') (sound : v.Sound)
    (reads : ∀ p sock, v.role = .reading p sock → v'.table.calls = v.table.calls ++ [(p,sock,.used)] → ¬ v.Announced p)
    (removes : ∀ p sock, v.role = .free → v'.role = .removing .deleteFD p sock →
      ¬ v.Announced p ∧ ∀ core ∈ v.table.core p, core.2.2 = true) (calling : v.Calling) : v'.Calling := by
  cases step with
  | stutter => exact calling
  | deliver T pending tasks told => exact calling.moves (by simp) (by simp) (by simp)
  | event T p pending tasks => exact calling.moves (by simp) (by simp) (by simp)
  | command T fd p pending tasks found => exact calling.moves (by simp) (by simp) (by simp)
  | exit T tasks => exact calling.moves (by simp) (by simp) (by simp)
  | work T role pending tasks T' role' work => exact calling.work sound reads removes work
  | call T role pending exited tasks t task T' task' found call => exact calling.call sound found call

theorem Step.disconnects {v v' : View} (step : Step v v') {p : Ptr} {sock : SOCKET} (free : v.role = .free)
    (removing : v'.role = .removing .deleteFD p sock) :
    v'.table.calls = v.table.calls ++ [(p,sock,.closed)] ∧ ∃ connected, v.table.core p = some (sock,true,connected) := by
  cases step with
  | stutter => exact absurd (free.symm.trans removing) (by simp)
  | deliver => simp at removing
  | event => simp at removing
  | command => simp at removing
  | exit => simp at removing
  | call => exact absurd (free.symm.trans removing) (by simp)
  | work T role pending tasks T' role' work =>
    dsimp only at free removing
    subst free
    cases work with
    | rest _ _ settled later => rcases later with rfl | rfl | ⟨q,k,reading,_⟩ <;> simp_all
    | listen kind => simp at removing
    | disconnect fd q k connected found core =>
      obtain ⟨_,rfl,rfl⟩ := Role.removing.inj removing
      exact ⟨rfl,connected,core⟩

theorem Step.calls_grow {v v' : View} (step : Step v v') : v.table.calls <+: v'.table.calls := by
  cases step with
  | work T role pending tasks T' role' work =>
    rcases work.calls with same | ⟨entry,more⟩
    · exact same ▸ List.prefix_rfl
    · exact more ▸ List.prefix_append _ _
  | call T role pending exited tasks t task T' task' found call =>
    rcases call.calls with same | ⟨p,sock,more⟩
    · exact same ▸ List.prefix_rfl
    · exact more ▸ List.prefix_append _ _
  | _ => exact List.prefix_rfl

end View

/-- `HandleReceive` hands on what it has read unless there is nothing or too much of it. -/
theorem TcpClient.handleReceive_on (p : Ptr) (sock : SOCKET) (buf : List UInt8) (timeMs : UInt64) (h : Host) :
    (handleReceive p sock (.ok buf) timeMs h).2 = none ↔
      buf ≠ [] ∧ (h.countReceived limiter p buf.length timeMs).isOverLimit limiter p = false := by
  cases buf with
  | nil => simp [handleReceive,Host.receiveIteration]
  | cons byte bytes =>
    have same := h.isOverLimit_countReceived
      ({h with rxBuffer := byte::bytes ++ h.rxBuffer.drop (byte::bytes).length}.observe (.received p (byte::bytes))) rfl
      limiter p (byte::bytes).length timeMs
    simp only [handleReceive,Host.receiveIteration,same,ne_eq,reduceCtorEq,not_false_eq_true,true_and]
    split <;> simp_all

namespace Sys

/-- The connection's `OnConnect` is still to be raised by the thread that made it. -/
def announcing (p : Ptr) (s : Sys) : Prop := ∃ caller ∈ s.callers, caller.task.announces = some p

instance (p : Ptr) (s : Sys) : Decidable (s.announcing p) := inferInstanceAs (Decidable (∃ caller ∈ _, _))

/-- The connection whose bytes the step hands to `DoRead`. -/
def reads (s : Sys) (act : Act) : Option Ptr :=
  match s.worker, act with
  | .read p _ _ _, .read (.ok buf) _ timeMs =>
    if buf ≠ [] ∧ (s.host.countReceived TcpClient.limiter p buf.length timeMs).isOverLimit TcpClient.limiter p = false then some p
    else none
  | _, _ => none

/-- The step hands nothing to `DoRead` for a connection, and removes none, that is still to be announced. -/
def ConnectsFirst (s : Sys) (act : Act) : Prop :=
  (∀ p ∈ s.reads act, ¬ s.announcing p) ∧
    ∀ p ∈ s.removed act, ¬ s.announcing p ∧ ∀ object ∈ s.host.heap p, object.connectState = true

instance (s : Sys) (act : Act) : Decidable (ConnectsFirst s act) := inferInstanceAs (Decidable ((∀ p ∈ _, _) ∧ ∀ p ∈ _, _))

theorem announcing_iff (p : Ptr) (s : Sys) : s.announcing p ↔ s.view.Announced p := by
  simp [announcing,View.Announced,view]

theorem reads_on {s : Sys} (client : s.host.kind = .tcpClient) {p : Ptr} {sock : SOCKET} {events : UInt32} {ctx : Ctx}
    (reading : s.worker = .read p sock events ctx) (rc : Except Errno (List UInt8)) (addr : Sockaddr)
    (timeMs : UInt64) (q : Ptr) :
    s.reads (.read rc addr timeMs) = some q ↔ p = q ∧ (s.host.handleReceive p sock addr rc timeMs).2 = none := by
  cases rc with
  | error code =>
    simp only [reads,reading,Host.handleReceive,client,TcpClient.handleReceive,Host.receiveIteration]
    split <;> simp
  | ok buf =>
    simp only [reads,reading,Host.handleReceive,client,TcpClient.handleReceive_on,Option.ite_none_right_eq_some,Option.some.injEq]
    exact and_comm

theorem role_reading {w : Worker} {p : Ptr} {sock : SOCKET} (reading : w.role = .reading p sock) :
    ∃ events ctx, w = .read p sock events ctx := by
  cases w with
  | read q k events ctx =>
    obtain ⟨rfl,rfl⟩ := Role.reading.inj reading
    exact ⟨events,ctx,rfl⟩
  | beforeIo pv events ctx => cases pv <;> simp [Worker.role] at reading
  | _ => simp [Worker.role] at reading

/-- A step that appends a `DoRead` is one that hands on what has been read. -/
theorem reads_used {s next : Sys} {act : Act} (control : Control s) (client : s.host.kind = .tcpClient)
    (taken : s.step act = some next) {p : Ptr} {sock : SOCKET} (reading : s.view.role = .reading p sock)
    (used : next.host.table.calls = s.host.table.calls ++ [(p,sock,.used)]) : s.reads act = some p := by
  obtain ⟨h,w,callers,stopCalled⟩ := s
  have silent {host : Host} (log : host.table.calls = h.table.calls) : host.table.calls ≠ h.table.calls ++ [(p,sock,.used)] := by
    simp [log]
  cases step_taken taken with
  | worker act host worker idle move =>
    obtain ⟨events,ctx,rfl⟩ := role_reading reading
    cases move with
    | readOn _ _ _ _ rc addr timeMs fits again => exact (reads_on client rfl rc addr timeMs p).mpr ⟨rfl,again⟩
    | readDone _ _ _ _ rc addr timeMs rs fits done =>
      exact absurd used (silent (congrArg Table.calls (Host.Quiet.calm_table (Host.handleReceive_done done))))
  | caller t c reply host later found may call =>
    rcases (call.call (control.joined c (List.mem_of_getElem? found))).calls with same | ⟨q,k,more⟩
    · exact absurd used (silent same)
    · simpa using more.symm.trans used
  | startAccept refused kind => exact absurd (client.symm.trans kind) (by simp)
  | sent act t k addr raw buf q object sends kind idle found live valid room =>
    exact absurd used (silent (by simp [Host.table,Host.observe,Host.modify,setCaller,Obs.callback]))
  | _ => exact absurd used (silent rfl)

theorem reads_next {s next : Sys} {act : Act} (client : s.host.kind = .tcpClient) (taken : s.step act = some next) {p : Ptr}
    (reads : s.reads act = some p) : ∃ sock, next.host.table.calls = s.host.table.calls ++ [(p,sock,.used)] := by
  obtain ⟨h,w,callers,stopCalled⟩ := s
  cases step_taken taken with
  | worker act host worker idle move =>
    cases move with
    | readOn q sock events ctx rc addr timeMs fits again =>
      obtain ⟨rfl,_⟩ := (reads_on client rfl rc addr timeMs p).mp reads
      obtain ⟨mid,buf,from_addr,calm,result⟩ := Host.handleReceive_again again
      refine ⟨sock,?_⟩
      change (h.handleReceive q sock addr rc timeMs).1.table.calls = _
      rw [result,Host.table_observe,Host.Quiet.calm_table calm]
      rfl
    | readDone q sock events ctx rc addr timeMs rs fits done =>
      obtain ⟨_,again⟩ := (reads_on client rfl rc addr timeMs p).mp reads
      exact absurd (again.symm.trans done) (by simp)
    | _ => simp [Sys.reads] at reads
  | sent act t sock addr raw buf q object sends => cases act <;> simp [message] at sends <;> cases w <;> simp [Sys.reads] at reads
  | sendRefused act sends => cases act <;> simp [message] at sends <;> cases w <;> simp [Sys.reads] at reads
  | _ => cases w <;> simp [Sys.reads] at reads

theorem connects_calling {s next : Sys} {act : Act} (inv : Inv s) (first : ConnectsFirst s act) (taken : s.step act = some next)
    (calling : s.view.Calling) : next.view.Calling := by
  refine (view_step inv.control taken).calling inv.sound (fun p sock reading used => ?_) (fun p sock free removing => ?_) calling
  · rw [← announcing_iff]
    exact first.1 p (reads_used inv.control calling.kind taken reading used)
  · obtain ⟨silent,connected⟩ := first.2 p (removed_role taken free removing)
    refine ⟨(announcing_iff p s).not.mp silent,fun core live => ?_⟩
    obtain ⟨object,at_p,rfl⟩ := Option.map_eq_some_iff.mp live
    exact connected object at_p

/-- Some connection's callbacks are out of order. -/
def Misordered (s : Sys) : Prop := ∃ p, ¬ Session.Single (s.host.table.said (.object p))

theorem misordered_stays {s next : Sys} {act : Act} (control : Control s) (taken : s.step act = some next)
    (misordered : Misordered s) : Misordered next := by
  obtain ⟨p,not_single⟩ := misordered
  exact ⟨p,fun single => not_single (single.of_prefix ((view_step control taken).calls_grow.filterMap _))⟩

/-- A step that breaks the condition says something about a connection before `OnConnect`. -/
theorem breaks_misordered {s next : Sys} {act : Act} (inv : Inv s) (calling : s.view.Calling) (taken : s.step act = some next)
    (breaks : ¬ ConnectsFirst s act) : Misordered next := by
  have early {p : Ptr} {sock : SOCKET} {call : Session.Call} (late : call ≠ .opened) (fresh : s.host.table.Stage p .fresh)
      (calls : next.host.table.calls = s.host.table.calls ++ [(p,sock,call)]) : Misordered next := by
    refine ⟨p,fun single => ?_⟩
    have said : next.host.table.said (.object p) = [call] := by
      have same : next.host.table.said (.object p) = (s.host.table.record p sock call).said (.object p) := by
        simp only [Table.said,calls,Table.record]
      rw [same,Table.said_record,Session.replay_fresh fresh]
      simp [About.selects]
    rw [said,Session.single_iff] at single
    cases call <;> simp_all [Session.replay,Session.advance]
  by_cases reads : ∀ p ∈ s.reads act, ¬ s.announcing p
  · obtain ⟨p,removed,unready⟩ : ∃ p ∈ s.removed act, ¬ (¬ s.announcing p ∧ ∀ object ∈ s.host.heap p,
      object.connectState = true) := by
      by_contra ready
      exact breaks ⟨reads,fun p removed => by_contra (fun unready => ready ⟨p,removed,unready⟩)⟩
    obtain ⟨⟨sock,removing⟩,_⟩ := removed_next taken removed
    obtain ⟨calls,connected,core⟩ := (view_step inv.control taken).disconnects (removed_free removed) removing
    refine early (by simp) ?_ calls
    by_cases announcing : s.announcing p
    · exact (calling.announced p ((announcing_iff p s).mp announcing)).1
    · simp only [announcing,not_false_eq_true,true_and,not_forall] at unready
      obtain ⟨object,live,fresh⟩ := unready
      have state : s.host.table.core p = some object.core := by simp [Host.table,show s.host.heap p = some object from live]
      obtain rfl : object.connectState = connected := congrArg (fun core => core.2.2) (Option.some.inj (state.symm.trans core))
      exact calling.unconnected p sock true ((Bool.not_eq_true _).mp fresh ▸ core)
  · simp only [not_forall,not_not] at reads
    obtain ⟨p,handed,announcing⟩ := reads
    obtain ⟨sock,calls⟩ := reads_next calling.kind taken handed
    exact early (by simp) (calling.announced p ((announcing_iff p s).mp announcing)).1 calls

/-- The callbacks of every connection of a `TcpClient` are in order exactly if none is used or
taken down before it is announced. -/
theorem client_callbacks_iff {config : Config} {acts : List Act} {s : Sys} (run : Run config acts s)
    (client : config.kind = .tcpClient) :
    (∀ p, Session.Single (s.host.table.said (.object p))) ↔ Transition.Along Sys.step ConnectsFirst config.started acts := by
  have start : Inv config.started ∧ config.started.view.Calling := ⟨started_inv config,View.started_calling config client⟩
  have kept (s : Sys) (act : Act) (next : Sys) (first : ConnectsFirst s act) (both : Inv s ∧ s.view.Calling)
      (taken : s.step act = some next) : Inv next ∧ next.view.Calling :=
    ⟨both.1.step taken,connects_calling both.1 first taken both.2⟩
  constructor
  · intro ordered
    refine Transition.along_of_good (I := fun s => Inv s ∧ s.view.Calling) (B := fun s => Inv s ∧ Misordered s)
      kept ?_ ?_ start run ?_
    · exact fun s act next breaks both taken => ⟨both.1.step taken,breaks_misordered both.1 both.2 taken breaks⟩
    · exact fun s act next bad taken => ⟨bad.1.step taken,misordered_stays bad.1.control taken bad.2⟩
    · rintro ⟨_,p,not_single⟩
      exact not_single (ordered p)
  · intro first p
    obtain ⟨_,calling⟩ := Transition.exec_invariant kept first start run
    obtain ⟨stage,replayed⟩ := calling.replayed p
    exact (Session.single_iff _).mpr (replayed ▸ rfl)

/-- `ConnectToRemote` up to the return of `AddSocketObject`. -/
def remoteConnection : List Act :=
  [.connect 1 .connectToRemote [],.caller 1 (.fd 7),.caller 1 (.object .blank 0)] ++ List.replicate 3 (.caller 1 .done)

/-- The worker reads what the peer has sent. -/
def firstBytes : List Act := [.epollPwait (.ok [(7,epollin)]),.worker,.beforeIo (.ok 0) 0,.readyRead 0,.read (.ok [1]) [] 0]

/-- The peer sends and closes after `OnConnect`. -/
theorem announced_in_order :
    ∃ s, Run (.plain .tcpClient 2) (remoteConnection ++ .caller 1 .done::firstBytes ++
        [.read (.ok []) [] 0,.worker,.epollPwait (.ok [(5,epollin)]),.worker,.worker]) s ∧
      s.host.table.said (.object 0) = [.opened,.used,.closed] ∧ ∀ p, Session.Single (s.host.table.said (.object p)) := by
  obtain ⟨s,run,said⟩ := run_reaches (.plain .tcpClient 2) (remoteConnection ++ .caller 1 .done::firstBytes ++
    [.read (.ok []) [] 0,.worker,.epollPwait (.ok [(5,epollin)]),.worker,.worker])
    (fun s => s.host.table.said (.object 0) = [.opened,.used,.closed]) (by decide +kernel)
  exact ⟨s,run,said,(client_callbacks_iff run rfl).mpr (by decide +kernel)⟩

/-- The peer's bytes are read between the two last steps of `ConnectToRemote`. -/
theorem read_before_announced :
    ∃ s, Run (.plain .tcpClient 2) (remoteConnection ++ firstBytes) s ∧ ¬ Session.Single (s.host.table.said (.object 0)) := by
  obtain ⟨s,run,said⟩ := run_reaches (.plain .tcpClient 2) (remoteConnection ++ firstBytes)
    (fun s => s.host.table.said (.object 0) = [.used]) (by decide +kernel)
  refine ⟨s,run,fun single => ?_⟩
  rw [said,Session.single_iff] at single
  simp [Session.replay,Session.advance] at single

end Sys

end LightServer
