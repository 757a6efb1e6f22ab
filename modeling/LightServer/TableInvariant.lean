import LightServer.TableSteps

/-! What holds of the connection table in every run: pointers are given out once, an
entry of the map names an object that knows its socket, and an object that a thread
has made is seen by no other thread until it is in the map. -/
namespace LightServer

def Task.object : Task → Option Ptr
  | .counting _ p _ | .inserting _ p _ | .adding _ p _ | .announcing _ p => some p
  | .other | .connecting => none

/-- The object that is still to be entered in the map. -/
def Task.making : Task → Option Ptr
  | .counting _ p _ | .inserting _ p _ => some p
  | _ => none

theorem Task.making_object {task : Task} {p : Ptr} (making : task.making = some p) : task.object = some p := by
  cases task <;> simp_all [Task.making,Task.object]

theorem object_afterAdd {notify : Bool} {sock : SOCKET} {p q : Ptr} (object : (afterAdd notify sock p).object = some q) :
    q = p := by
  cases notify <;> simp_all [afterAdd,Task.object]

@[simp] theorem making_afterAdd (notify : Bool) (sock : SOCKET) (p : Ptr) : (afterAdd notify sock p).making = none := by
  cases notify <;> rfl

namespace Table

/-- The worker can come across the object. -/
def Shows (T : Table) (role : Role) (p : Ptr) : Prop :=
  (∃ sock, T.find sock = some p) ∨ (∃ fd, T.registered fd = some p) ∨ role.object = some p

theorem Shows.of_role {T : Table} {role role' : Role} {p : Ptr} (shows : T.Shows role' p)
    (object : role'.object = some p → T.Shows role p) : T.Shows role p :=
  shows.elim .inl (Or.elim · (fun registered => .inr (.inl registered)) object)

theorem Closes.shows {T T' : Table} (closes : T.Closes T') {role : Role} {p : Ptr} (shows : T'.Shows role p) :
    T.Shows role p := by
  obtain ⟨_,_,rfl,_,fewer⟩ := closes
  exact shows.imp id (Or.imp (Exists.imp (fun fd registered => fewer fd p registered)) id)

/-- The worker shows no object that it did not show before or has not made itself. -/
theorem Work.shows {T T' : Table} {role role' : Role} (work : Work T role T' role') {p : Ptr} (shows : T'.Shows role' p) :
    T.Shows role p ∨ p = T.nextPtr ∧ T.nextPtr < T'.nextPtr := by
  have same (object : role'.object = some p → T.Shows role p) (before : T.Shows role' p) :
      T.Shows role p ∨ p = T.nextPtr ∧ T.nextPtr < T'.nextPtr := .inl (before.of_role object)
  cases work with
  | rest _ _ settled later =>
    refine same (fun object => ?_) shows
    rcases later with rfl | rfl | ⟨q,sock,rfl,rfl⟩
    · exact .inr (.inr object)
    · simp [Role.object] at object
    · exact .inr (.inr object)
  | handle q ready => exact same (fun object => .inr (.inr object)) shows
  | connect q sock _ kind core later =>
    refine same (fun object => ?_) shows
    rcases later with rfl | rfl
    · simp [Role.object] at object
    · exact .inr (.inr object)
  | startRead q sock connected core => exact same (fun object => .inr (.inr object)) shows
  | doRead q sock => exact same (fun object => .inr (.inr object)) shows
  | listen kind => exact same (by simp [Role.object]) shows
  | accept sock nonneg unused listening => exact same (by simp [Role.object]) shows
  | add sock registered absent registers =>
    by_cases new : p = T.nextPtr
    · exact .inr ⟨new,by simp [alloc]⟩
    · left
      rcases shows with ⟨other,found⟩ | ⟨fd,registered⟩ | object
      · by_cases at_sock : other = sock
        · simp [at_sock,Ne.symm new] at found
        · exact .inl ⟨other,by simpa [at_sock,alloc] using found⟩
      · refine .inr (.inl ⟨fd,?_⟩)
        rcases registers with rfl | rfl
        · exact registered
        · by_cases at_sock : fd = sock
          · simp [at_sock,Ne.symm new] at registered
          · simpa [at_sock] using registered
      · simp [Role.object,Ne.symm new] at object
  | leak sock core present => exact same (by simp [Role.object]) shows
  | closeAccepted sock => exact same (by simp [Role.object]) ((T.closes_closeFD sock).shows shows)
  | announce q sock => exact same (by simp [Role.object]) shows
  | disconnect fd q sock connected found core =>
    refine same (fun object => .inl ⟨fd,?_⟩) shows
    exact found.trans object
  | removeFD q sock => exact same (fun object => .inr (.inr object)) ((T.closes_unregister sock).shows shows)
  | removeClose q sock => exact same (fun object => .inr (.inr object)) ((T.closes_closeFD sock).shows shows)
  | removeDelete q sock => exact same (fun object => .inr (.inr object)) shows
  | removeErase q sock =>
    left
    rcases shows with ⟨other,found⟩ | registered | object
    · by_cases erased : other = sock
      · simp [erased] at found
      · exact .inl ⟨other,by simpa [erased] using found⟩
    · exact .inr (.inl registered)
    · simp [Role.object] at object

theorem Work.grows {T T' : Table} {role role' : Role} (work : Work T role T' role') :
    T.nextPtr ≤ T'.nextPtr ∧
    (∀ p, T'.core p ≠ none → T.core p ≠ none ∨ p = T.nextPtr ∧ T.nextPtr < T'.nextPtr) ∧
    ∀ entry ∈ T'.calls, entry ∈ T.calls ∨ T.Shows role entry.1 := by
  have set {core : Option (SOCKET × Bool × Bool)} {q : Ptr} (live : T.core q ≠ none) (p : Ptr)
      (now : (T.setCore q core).core p ≠ none) : T.core p ≠ none := by
    by_cases same : p = q
    · exact same ▸ live
    · simpa [setCore,same] using now
  have made {core : SOCKET × Bool × Bool} (p : Ptr) (now : (T.alloc core).core p ≠ none) :
      T.core p ≠ none ∨ p = T.nextPtr ∧ T.nextPtr < T.nextPtr+1 := by
    by_cases new : p = T.nextPtr
    · exact .inr ⟨new,Nat.lt_succ_self _⟩
    · exact .inl (by simpa [alloc,setCore,new] using now)
  have closed {T' : Table} (closes : T.Closes T') : T.nextPtr ≤ T'.nextPtr ∧
      (∀ p, T'.core p ≠ none → T.core p ≠ none ∨ p = T.nextPtr ∧ T.nextPtr < T'.nextPtr) ∧
      ∀ entry ∈ T'.calls, entry ∈ T.calls ∨ T.Shows role entry.1 := by
    obtain ⟨_,_,rfl,_,_⟩ := closes
    exact ⟨le_rfl,fun _ => .inl,fun _ => .inl⟩
  have recorded {calls : List (Ptr × SOCKET × Session.Call)} {p sock call}
      (object : T.Shows role p) : ∀ entry ∈ calls ++ [(p,sock,call)], entry ∈ calls ∨ T.Shows role entry.1 := by
    intro entry member
    rcases List.mem_append.mp member with old | new
    · exact .inl old
    · rw [List.mem_singleton.mp new]
      exact .inr object
  cases work with
  | rest _ _ settled later => exact ⟨le_rfl,fun _ => .inl,fun _ => .inl⟩
  | handle p ready => exact ⟨le_rfl,fun _ => .inl,fun _ => .inl⟩
  | connect p sock _ kind core later =>
    exact ⟨le_rfl,fun q now => .inl (set (by simp [core]) q now),recorded (.inr (.inr rfl))⟩
  | startRead p sock connected core => exact ⟨le_rfl,fun _ => .inl,fun _ => .inl⟩
  | doRead p sock => exact ⟨le_rfl,fun _ => .inl,recorded (.inr (.inr rfl))⟩
  | listen kind => exact ⟨le_rfl,fun _ => .inl,fun _ => .inl⟩
  | accept sock nonneg unused listening => exact ⟨le_rfl,fun _ => .inl,fun _ => .inl⟩
  | add sock registered absent registers => exact ⟨Nat.le_succ _,made,fun _ => .inl⟩
  | leak sock core present => exact ⟨Nat.le_succ _,made,fun _ => .inl⟩
  | closeAccepted sock => exact closed (T.closes_closeFD sock)
  | announce p sock => exact ⟨le_rfl,fun _ => .inl,recorded (.inr (.inr rfl))⟩
  | disconnect fd p sock connected found core =>
    exact ⟨le_rfl,fun q now => .inl (set (by simp [core]) q now),recorded (.inl ⟨fd,found⟩)⟩
  | removeFD p sock => exact closed (T.closes_unregister sock)
  | removeClose p sock => exact closed (T.closes_closeFD sock)
  | removeDelete p sock =>
    refine ⟨le_rfl,fun q now => .inl ?_,fun _ => .inl⟩
    by_cases same : q = p
    · simp [setCore,same] at now
    · simpa [setCore,same] using now
  | removeErase p sock => exact ⟨le_rfl,fun _ => .inl,fun _ => .inl⟩

theorem Call.shows {T T' : Table} {exited : Bool} {task task' : Task} (call : Call T exited task T' task') {role : Role}
    {p : Ptr} (shows : T'.Shows role p) : T.Shows role p ∨ task.object = some p ∧ task'.making = none := by
  cases call with
  | closeFD sock => exact .inl ((T.closes_closeFD sock).shows shows)
  | closeListenSocket => exact .inl ((T.closes_closeFD T.listenSocket).shows shows)
  | closeFds _ finished closes => exact .inl (closes.shows shows)
  | insert sock q notify find inserts =>
    rcases inserts with rfl | ⟨missing,rfl⟩
    · exact .inl shows
    · rcases shows with ⟨other,found⟩ | later
      · by_cases at_sock : other = sock
        · exact .inr ⟨by simpa [at_sock,Task.object] using found,rfl⟩
        · exact .inl (.inl ⟨other,by simpa [at_sock] using found⟩)
      · exact .inl (.inr later)
  | addFD sock q notify registered registers =>
    rcases registers with rfl | ⟨opened,rfl⟩
    · exact .inl shows
    · rcases shows with found | ⟨fd,registered⟩ | object
      · exact .inl (.inl found)
      · by_cases at_sock : fd = sock
        · exact .inr ⟨by simpa [at_sock,Task.object] using registered,making_afterAdd notify sock q⟩
        · exact .inl (.inr (.inl ⟨fd,by simpa [at_sock] using registered⟩))
      · exact .inl (.inr (.inr object))
  | release core registered finished fewer unregistered =>
    rcases shows with ⟨other,found⟩ | ⟨fd,registered⟩ | object
    · simp at found
    · exact .inl (.inr (.inl ⟨fd,unregistered fd p registered⟩))
    · exact .inl (.inr (.inr object))
  | _ => exact .inl shows

theorem Call.grows {T T' : Table} {exited : Bool} {task task' : Task} (call : Call T exited task T' task') :
    T.nextPtr ≤ T'.nextPtr ∧
    (∀ p, T'.core p ≠ none → T.core p ≠ none ∨ p = T.nextPtr ∧ T.nextPtr < T'.nextPtr) ∧
    (∀ entry ∈ T'.calls, entry ∈ T.calls ∨ task.object = some entry.1) ∧
    (∀ p, task'.object = some p → task.object = some p ∨ p = T.nextPtr ∧ T.nextPtr < T'.nextPtr) ∧
    ∀ p, task'.making = some p → task.making = some p ∨ p = T.nextPtr ∧ T.nextPtr < T'.nextPtr := by
  have closed {T' : Table} (closes : T.Closes T') : T.nextPtr ≤ T'.nextPtr ∧
      (∀ p, T'.core p ≠ none → T.core p ≠ none ∨ p = T.nextPtr ∧ T.nextPtr < T'.nextPtr) ∧
      ∀ entry ∈ T'.calls, entry ∈ T.calls ∨ task.object = some entry.1 := by
    obtain ⟨_,_,rfl,_,_⟩ := closes
    exact ⟨le_rfl,fun _ => .inl,fun _ => .inl⟩
  cases call with
  | rest _ => exact ⟨le_rfl,fun _ => .inl,fun _ => .inl,fun _ => .inl,fun _ => .inl⟩
  | fail => exact ⟨le_rfl,fun _ => .inl,fun _ => .inl,fun _ => .inl,fun _ => .inl⟩
  | connect kind => exact ⟨le_rfl,fun _ => .inl,fun _ => .inl,fun _ => .inl,fun _ => .inl⟩
  | openFD sock unused => exact ⟨le_rfl,fun _ => .inl,fun _ => .inl,fun _ => .inl,fun _ => .inl⟩
  | closeFD sock =>
    obtain ⟨next,core,calls⟩ := closed (T.closes_closeFD sock)
    exact ⟨next,core,calls,by simp [Task.object],by simp [Task.making]⟩
  | prepare sock valid notify =>
    refine ⟨Nat.le_succ _,fun p now => ?_,fun _ => .inl,fun p object => ?_,fun p making => ?_⟩
    · by_cases new : p = T.nextPtr
      · exact .inr ⟨new,Nat.lt_succ_self _⟩
      · exact .inl (by simpa [alloc,setCore,new] using now)
    · exact .inr ⟨(Option.some.inj object).symm,Nat.lt_succ_self _⟩
    · exact .inr ⟨(Option.some.inj making).symm,Nat.lt_succ_self _⟩
  | present sock p notify found =>
    exact ⟨le_rfl,fun _ => .inl,fun _ => .inl,fun q object => .inl (by simp [Task.object,object_afterAdd object]),by simp⟩
  | absent sock p notify missing => exact ⟨le_rfl,fun _ => .inl,fun _ => .inl,fun _ => .inl,fun _ => .inl⟩
  | insert sock p notify find inserts =>
    refine ⟨le_rfl,fun q now => .inl ?_,fun _ => .inl,fun _ => .inl,by simp [Task.making]⟩
    by_cases same : q = p
    · subst same
      intro none_before
      simp [setCore,none_before] at now
    · simpa [setCore,same] using now
  | addFD sock p notify registered registers =>
    exact ⟨le_rfl,fun _ => .inl,fun _ => .inl,fun q object => .inl (by simp [Task.object,object_afterAdd object]),by simp⟩
  | announce sock p =>
    refine ⟨le_rfl,fun _ => .inl,fun entry member => ?_,by simp [Task.object],by simp [Task.making]⟩
    rcases List.mem_append.mp member with old | new
    · exact .inl old
    · exact .inr (by rw [List.mem_singleton.mp new]; rfl)
  | closeListenSocket =>
    obtain ⟨next,core,calls⟩ := closed (T.closes_closeFD T.listenSocket)
    exact ⟨next,core,calls,fun _ => .inl,fun _ => .inl⟩
  | release core registered finished fewer unregistered =>
    refine ⟨le_rfl,fun p now => .inl ?_,fun _ => .inl,fun _ => .inl,fun _ => .inl⟩
    rcases fewer p with same | ⟨gone,_⟩
    · exact same ▸ now
    · exact absurd gone now
  | closeFds _ finished closes =>
    obtain ⟨next,core,calls⟩ := closed closes
    exact ⟨next,core,calls,fun _ => .inl,fun _ => .inl⟩

theorem Call.kind {T T' : Table} {exited : Bool} {task task' : Task} (call : Call T exited task T' task') : T'.kind = T.kind := by
  have closed {T' : Table} (closes : T.Closes T') : T'.kind = T.kind := by
    obtain ⟨_,_,rfl,_,_⟩ := closes
    rfl
  cases call with
  | closeFD sock => exact closed (T.closes_closeFD sock)
  | closeListenSocket => exact closed (T.closes_closeFD T.listenSocket)
  | closeFds _ finished closes => exact closed closes
  | _ => rfl

theorem Work.kind {T T' : Table} {role role' : Role} (work : Work T role T' role') : T'.kind = T.kind := by
  have closed {T' : Table} (closes : T.Closes T') : T'.kind = T.kind := by
    obtain ⟨_,_,rfl,_,_⟩ := closes
    rfl
  cases work with
  | closeAccepted sock => exact closed (T.closes_closeFD sock)
  | removeClose p sock => exact closed (T.closes_closeFD sock)
  | _ => rfl

end Table

namespace View

/-- The object is in the map, registered or in the worker's hands. -/
def Visible (v : View) (p : Ptr) : Prop := v.table.Shows v.role p ∨ p ∈ v.pending

structure Sound (v : View) : Prop where
  visible : ∀ p, v.Visible p → p < v.table.nextPtr
  core : ∀ p, v.table.core p ≠ none → p < v.table.nextPtr
  calls : ∀ entry ∈ v.table.calls, entry.1 < v.table.nextPtr
  object : ∀ task ∈ v.tasks, ∀ p, task.object = some p → p < v.table.nextPtr
  making : ∀ task ∈ v.tasks, ∀ p, task.making = some p → ¬ v.Visible p
  distinct : ∀ (t t' : Nat) (task task' : Task) (p : Ptr), v.tasks[t]? = some task → v.tasks[t']? = some task' →
    task.object = some p → task'.object = some p → t = t'
  finished : v.exited = true → v.role = .free ∧ v.pending = []

/-- There are no connections, and nothing has been said to the listener. -/
structure Blank (v : View) : Prop where
  find : ∀ sock, v.table.find sock = none
  registered : ∀ fd, v.table.registered fd = none
  core : ∀ p, v.table.core p = none
  calls : v.table.calls = []
  free : v.role = .free ∧ v.pending = []
  tasks : ∀ task ∈ v.tasks, task = .other

theorem Blank.unseen {v : View} (blank : Blank v) (p : Ptr) : ¬ v.Visible p := by
  rintro ((⟨sock,found⟩ | ⟨fd,registered⟩ | object) | pending)
  · simp [blank.find sock] at found
  · simp [blank.registered fd] at registered
  · simp [blank.free.1,Role.object] at object
  · simp [blank.free.2] at pending

theorem Blank.sound {v : View} (blank : Blank v) : Sound v := by
  refine ⟨fun p seen => absurd seen (blank.unseen p),fun p live => absurd (blank.core p) live,by simp [blank.calls],
    fun task member p object => ?_,fun task member p making => ?_,?_,fun _ => blank.free⟩
  · simp [blank.tasks task member,Task.object] at object
  · simp [blank.tasks task member,Task.making] at making
  · intro t t' task task' p found found' object object'
    simp [blank.tasks task (List.mem_of_getElem? found),Task.object] at object

theorem started_blank (config : Config) : Blank config.started.view := by
  refine ⟨fun sock => rfl,fun fd => ?_,fun p => rfl,rfl,⟨rfl,by simp [Sys.view,Config.started,Worker.place,Place.rest,objectsOf]⟩,
    fun task member => ?_⟩
  · simp only [Sys.view,Host.table,Config.started,Config.interest]
    split_ifs <;> rfl
  · simp only [Sys.view,Config.started,List.map_replicate,List.mem_replicate] at member
    exact member.2

private theorem Sound.worker {v v' : View} (sound : v.Sound) (tasks : v'.tasks = v.tasks)
    (grows : v.table.nextPtr ≤ v'.table.nextPtr)
    (visible : ∀ p, v'.Visible p → v.Visible p ∨ p = v.table.nextPtr ∧ v.table.nextPtr < v'.table.nextPtr)
    (core : ∀ p, v'.table.core p ≠ none → v.table.core p ≠ none ∨ p = v.table.nextPtr ∧ v.table.nextPtr < v'.table.nextPtr)
    (calls : ∀ entry ∈ v'.table.calls, entry ∈ v.table.calls ∨ v.Visible entry.1)
    (finished : v'.exited = true → v'.role = .free ∧ v'.pending = []) : v'.Sound := by
  refine ⟨fun p seen => ?_,fun p live => ?_,fun entry member => ?_,fun task member p object => ?_,
    fun task member p making seen => ?_,tasks ▸ sound.distinct,finished⟩
  · rcases visible p seen with old | ⟨rfl,new⟩
    · exact (sound.visible p old).trans_le grows
    · exact new
  · rcases core p live with old | ⟨rfl,new⟩
    · exact (sound.core p old).trans_le grows
    · exact new
  · rcases calls entry member with old | seen
    · exact (sound.calls entry old).trans_le grows
    · exact (sound.visible _ seen).trans_le grows
  · exact (sound.object task (tasks ▸ member) p object).trans_le grows
  · rcases visible p seen with old | ⟨rfl,_⟩
    · exact sound.making task (tasks ▸ member) p making old
    · exact lt_irrefl _ (sound.object task (tasks ▸ member) _ (Task.making_object making))

theorem Step.sound {v v' : View} (step : Step v v') (sound : v.Sound) : v'.Sound := by
  cases step with
  | stutter => exact sound
  | deliver T pending tasks told =>
    refine sound.worker rfl le_rfl (fun p seen => ?_) (fun _ => .inl) (fun _ => .inl) (by simp)
    rcases seen with shows | member
    · exact .inl (.inl shows)
    · exact .inl (.inl (.inr (.inl (told p member))))
  | event T p pending tasks =>
    refine sound.worker rfl le_rfl (fun q seen => ?_) (fun _ => .inl) (fun _ => .inl) (by simp)
    rcases seen with (found | registered | object) | member
    · exact .inl (.inl (.inl found))
    · exact .inl (.inl (.inr (.inl registered)))
    · exact .inl (.inr (by simp [Option.some.inj object]))
    · exact .inl (.inr (by simp [member]))
  | command T fd p pending tasks found =>
    refine sound.worker rfl le_rfl (fun q seen => ?_) (fun _ => .inl) (fun _ => .inl) (by simp)
    rcases seen with (at_sock | registered | object) | member
    · exact .inl (.inl (.inl at_sock))
    · exact .inl (.inl (.inr (.inl registered)))
    · exact .inl (.inl (.inl ⟨fd,found.trans object⟩))
    · exact .inl (.inr member)
  | exit T tasks => exact sound.worker rfl le_rfl (fun _ => .inl) (fun _ => .inl) (fun _ => .inl) (by simp)
  | work T role pending tasks T' role' work =>
    obtain ⟨grows,core,calls⟩ := work.grows
    refine sound.worker rfl grows (fun p seen => ?_) core (fun entry member => (calls entry member).imp id .inl) (by simp)
    rcases seen with shows | member
    · exact (work.shows shows).imp .inl id
    · exact .inl (.inr member)
  | call T role pending exited tasks t task T' task' found call =>
    obtain ⟨grows,core,calls,object,making⟩ := call.grows
    have member := List.mem_of_getElem? found
    have visible (p : Ptr) (seen : View.Visible ⟨T',role,pending,exited,tasks.set t task'⟩ p) :
        View.Visible ⟨T,role,pending,exited,tasks⟩ p ∨ task.object = some p ∧ task'.making = none := by
      rcases seen with shows | waiting
      · exact (call.shows shows).imp .inl id
      · exact .inl (.inr waiting)
    have at_index {u : Nat} {job : Task} (now : (tasks.set t task')[u]? = some job) :
        u = t ∧ job = task' ∨ u ≠ t ∧ tasks[u]? = some job := getElem?_of_set found now
    have fresh {u : Nat} {job : Task} (at_u : tasks[u]? = some job) {p : Ptr} (held : job.object = some p)
        (differs : u ≠ t) (mine : task'.object = some p) : False := by
      rcases object p mine with old | ⟨new,_⟩
      · exact differs (sound.distinct u t job task p at_u found held old)
      · exact absurd (sound.object job (List.mem_of_getElem? at_u) p held) (by simp [new])
    refine ⟨fun p seen => ?_,fun p live => ?_,fun entry listed => ?_,fun job listed p held => ?_,
      fun job listed p makes seen => ?_,fun u u' job job' p at_u at_u' held held' => ?_,sound.finished⟩
    · rcases visible p seen with old | ⟨mine,_⟩
      · exact (sound.visible p old).trans_le grows
      · exact (sound.object task member p mine).trans_le grows
    · rcases core p live with old | ⟨rfl,new⟩
      · exact (sound.core p old).trans_le grows
      · exact new
    · rcases calls entry listed with old | mine
      · exact (sound.calls entry old).trans_le grows
      · exact (sound.object task member _ mine).trans_le grows
    · rcases List.mem_or_eq_of_mem_set listed with old | rfl
      · exact (sound.object job old p held).trans_le grows
      · rcases object p held with mine | ⟨rfl,new⟩
        · exact (sound.object task member p mine).trans_le grows
        · exact new
    · obtain ⟨u,at_u⟩ := List.mem_iff_getElem?.mp listed
      rcases visible p seen with old | ⟨mine,entered⟩
      · rcases at_index at_u with ⟨_,rfl⟩ | ⟨_,at_u⟩
        · rcases making p makes with before | ⟨rfl,_⟩
          · exact sound.making task member p before old
          · exact lt_irrefl _ (sound.visible _ old)
        · exact sound.making job (List.mem_of_getElem? at_u) p makes old
      · rcases at_index at_u with ⟨_,rfl⟩ | ⟨differs,at_u⟩
        · simp [entered] at makes
        · exact differs (sound.distinct u t job task p at_u found (Task.making_object makes) mine)
    · rcases at_index at_u with ⟨rfl,rfl⟩ | ⟨differs,was⟩ <;> rcases at_index at_u' with ⟨rfl,rfl⟩ | ⟨differs',was'⟩
      · rfl
      · exact (fresh was' held' differs' held).elim
      · exact (fresh was held differs held').elim
      · exact sound.distinct u u' job job' p was was' held held'

theorem Step.nextPtr_le {v v' : View} (step : Step v v') : v.table.nextPtr ≤ v'.table.nextPtr := by
  cases step with
  | work T role pending tasks T' role' work => exact work.grows.1
  | call T role pending exited tasks t task T' task' found call => exact call.grows.1
  | _ => exact le_rfl

theorem Step.kind {v v' : View} (step : Step v v') : v'.table.kind = v.table.kind := by
  cases step with
  | work T role pending tasks T' role' work => exact work.kind
  | call T role pending exited tasks t task T' task' found call => exact call.kind
  | _ => rfl

structure Entered (v : View) : Prop where
  named : ∀ sock p, v.table.find sock = some p →
    (∃ valid connected, v.table.core p = some (sock,valid,connected)) ∨ v.role = .removing .erase p sock
  unique : ∀ sock sock' p, v.table.find sock = some p → v.table.find sock' = some p → sock = sock'
  removing : ∀ stage p sock, v.role = .removing stage p sock → v.table.find sock = some p
  made : ∀ task ∈ v.tasks, ∀ p, task.making = some p → v.table.core p ≠ none

theorem Blank.entered {v : View} (blank : Blank v) : Entered v := by
  refine ⟨fun sock p found => ?_,fun sock sock' p found => ?_,fun stage p sock removes => ?_,fun task member p making => ?_⟩
  · simp [blank.find sock] at found
  · simp [blank.find sock] at found
  · simp [blank.free.1] at removes
  · simp [blank.tasks task member,Task.making] at making

private theorem Entered.work {T T' : Table} {role role' : Role} {pending : List Ptr} {exited : Bool} {tasks : List Task}
    (sound : Sound ⟨T,role,pending,exited,tasks⟩) (entered : Entered ⟨T,role,pending,exited,tasks⟩)
    (work : Table.Work T role T' role') : Entered ⟨T',role',pending,exited,tasks⟩ := by
  obtain ⟨named,unique,removing,made⟩ := entered
  dsimp only at named unique removing made
  have below {sock p} (found : T.find sock = some p) : p ≠ T.nextPtr :=
    (sound.visible p (.inl (.inl ⟨sock,found⟩))).ne
  have same {T' : Table} (find : T'.find = T.find) (core : T'.core = T.core)
      (settled : ∀ p sock, role = .removing .erase p sock → role' = .removing .erase p sock)
      (removes : ∀ stage p sock, role' = .removing stage p sock → T.find sock = some p) :
      Entered ⟨T',role',pending,exited,tasks⟩ := by
    refine ⟨fun sock p found => ?_,find ▸ unique,find ▸ removes,core ▸ made⟩
    exact (named sock p (find ▸ found)).imp (core ▸ id) (settled p sock)
  have recore {T' : Table} {q : Ptr} {k : SOCKET} {valid connected valid' connected' : Bool} (find : T'.find = T.find)
      (before : T.core q = some (k,valid,connected)) (core : T'.core = Function.update T.core q (some (k,valid',connected')))
      (settled : ∀ p sock, role ≠ .removing .erase p sock)
      (removes : ∀ stage p sock, role' = .removing stage p sock → T.find sock = some p) :
      Entered ⟨T',role',pending,exited,tasks⟩ := by
    refine ⟨fun sock p found => .inl ?_,find ▸ unique,find ▸ removes,fun task member p makes => ?_⟩
    · obtain ⟨valid,connected,at_p⟩ := (named sock p (find ▸ found)).resolve_right (settled p sock)
      by_cases equal : p = q
      · obtain ⟨rfl,_⟩ : k = sock ∧ _ := by simpa [equal,before] using at_p
        exact ⟨valid',connected',by simp [core,equal]⟩
      · exact ⟨valid,connected,by simpa [core,equal] using at_p⟩
    · by_cases equal : p = q
      · simp [core,equal]
      · simpa [core,equal] using made task member p makes
  have closed {T' : Table} (closes : T.Closes T')
      (settled : ∀ p sock, role = .removing .erase p sock → role' = .removing .erase p sock)
      (removes : ∀ stage p sock, role' = .removing stage p sock → T.find sock = some p) :
      Entered ⟨T',role',pending,exited,tasks⟩ := by
    obtain ⟨_,_,rfl,_,_⟩ := closes
    exact same rfl rfl settled removes
  cases work with
  | rest _ _ settled later =>
    refine same rfl rfl (fun p sock erasing => ?_) (fun stage p sock removes => ?_)
    · simp [erasing,Role.settled] at settled
    · rcases later with rfl | rfl | ⟨q,k,_,rfl⟩
      · simp [removes,Role.settled] at settled
      · simp at removes
      · simp at removes
  | handle p ready => exact same rfl rfl (by simp) (by simp)
  | connect p sock _ kind core later =>
    refine recore rfl core rfl (by simp) (fun stage q k removes => ?_)
    rcases later with rfl | rfl <;> simp at removes
  | startRead p sock connected core => exact same rfl rfl (by simp) (by simp)
  | doRead p sock => exact same rfl rfl (by simp) (by simp)
  | listen kind => exact same rfl rfl (by simp) (by simp)
  | accept sock nonneg unused listening => exact same rfl rfl (by simp) (by simp)
  | add sock registered absent registers =>
    refine ⟨fun k p found => .inl ?_,fun k k' p found found' => ?_,by simp,fun task member p makes => ?_⟩
    · by_cases at_sock : k = sock
      · obtain rfl : T.nextPtr = p := by simpa [at_sock] using found
        exact ⟨true,true,by simp [Table.alloc,Table.setCore,at_sock]⟩
      · have old : T.find k = some p := by simpa [at_sock] using found
        obtain ⟨valid,connected,core⟩ := (named k p old).resolve_right (by simp)
        exact ⟨valid,connected,by simpa [Table.alloc,Table.setCore,below old] using core⟩
    · by_cases at_sock : k = sock <;> by_cases at_sock' : k' = sock
      · exact at_sock.trans at_sock'.symm
      · have old : T.find k' = some p := by simpa [at_sock'] using found'
        simp [at_sock,Ne.symm (below old)] at found
      · have old : T.find k = some p := by simpa [at_sock] using found
        simp [at_sock',Ne.symm (below old)] at found'
      · exact unique k k' p (by simpa [at_sock] using found) (by simpa [at_sock'] using found')
    · simpa [Table.alloc,Table.setCore,(sound.object task member p (Task.making_object makes)).ne] using made task member p makes
  | leak sock core present =>
    refine ⟨fun k p found => .inl ?_,unique,by simp,fun task member p makes => ?_⟩
    · obtain ⟨valid,connected,core⟩ := (named k p found).resolve_right (by simp)
      exact ⟨valid,connected,by simpa [Table.alloc,Table.setCore,below found] using core⟩
    · simpa [Table.alloc,Table.setCore,(sound.object task member p (Task.making_object makes)).ne] using made task member p makes
  | closeAccepted sock => exact closed (T.closes_closeFD sock) (by simp) (by simp)
  | announce p sock => exact same rfl rfl (by simp) (by simp)
  | disconnect fd p sock connected found core =>
    obtain ⟨_,_,at_p⟩ := (named fd p found).resolve_right (by simp)
    obtain ⟨rfl,_⟩ : sock = fd ∧ _ := by simpa [core] using at_p
    refine recore rfl core rfl (by simp) (fun stage q k removes => ?_)
    obtain ⟨_,rfl,rfl⟩ := Role.removing.inj removes
    exact found
  | removeFD p sock => exact same rfl rfl (by simp) (by simpa using removing)
  | removeClose p sock => exact closed (T.closes_closeFD sock) (by simp) (by simpa using removing)
  | removeDelete p sock =>
    have found := removing .delete p sock rfl
    refine ⟨fun k q found' => ?_,unique,fun stage q k removes => ?_,fun task member q makes => ?_⟩
    · by_cases equal : q = p
      · rw [equal] at found' ⊢
        exact .inr (by rw [unique k sock p found' found])
      · obtain ⟨valid,connected,core⟩ := (named k q found').resolve_right (by simp)
        exact .inl ⟨valid,connected,by simpa [Table.setCore,equal] using core⟩
    · obtain ⟨_,rfl,rfl⟩ := Role.removing.inj removes
      exact found
    · have differs : q ≠ p := by
        rintro rfl
        exact sound.making task member q makes (.inl (.inl ⟨sock,found⟩))
      simpa [Table.setCore,differs] using made task member q makes
  | removeErase p sock =>
    have old {k : SOCKET} {q : Ptr} (found : Function.update T.find sock none k = some q) : k ≠ sock ∧ T.find k = some q := by
      by_cases erased : k = sock
      · simp [erased] at found
      · exact ⟨erased,by simpa [erased] using found⟩
    refine ⟨fun k q found => .inl ?_,fun k k' q found found' => unique k k' q (old found).2 (old found').2,by simp,made⟩
    refine (named k q (old found).2).resolve_right (fun erasing => (old found).1 ?_)
    simpa using (Role.removing.inj erasing).2.2.symm

private theorem Entered.call {T T' : Table} {role : Role} {pending : List Ptr} {exited : Bool} {tasks : List Task}
    {task task' : Task} {t : Nat} (sound : Sound ⟨T,role,pending,exited,tasks⟩) (entered : Entered ⟨T,role,pending,exited,tasks⟩)
    (found : tasks[t]? = some task) (call : Table.Call T exited task T' task') :
    Entered ⟨T',role,pending,exited,tasks.set t task'⟩ := by
  obtain ⟨named,unique,removing,made⟩ := entered
  dsimp only at named unique removing made
  have member := List.mem_of_getElem? found
  have same {T' : Table} (find : T'.find = T.find) (core : T'.core = T.core)
      (makes : ∀ p, task'.making = some p → task.making = some p) :
      Entered ⟨T',role,pending,exited,tasks.set t task'⟩ := by
    refine ⟨find ▸ core ▸ named,find ▸ unique,find ▸ removing,fun job listed p making => core ▸ ?_⟩
    rcases List.mem_or_eq_of_mem_set listed with old | rfl
    · exact made job old p making
    · exact made task member p (makes p making)
  have closed {T' : Table} (closes : T.Closes T') (makes : ∀ p, task'.making = some p → task.making = some p) :
      Entered ⟨T',role,pending,exited,tasks.set t task'⟩ := by
    obtain ⟨_,_,rfl,_,_⟩ := closes
    exact same rfl rfl makes
  cases call with
  | rest _ => exact same rfl rfl (fun _ => id)
  | fail => exact same rfl rfl (fun _ => id)
  | connect kind => exact same rfl rfl (fun _ => id)
  | openFD sock unused => exact same rfl rfl (fun _ => id)
  | closeFD sock => exact closed (T.closes_closeFD sock) (fun _ => id)
  | prepare sock valid notify =>
    refine ⟨fun k p at_k => ?_,unique,removing,fun job listed p making => ?_⟩
    · have old : p ≠ T.nextPtr := (sound.visible p (.inl (.inl ⟨k,at_k⟩))).ne
      exact (named k p at_k).imp (fun core => by simpa [Table.alloc,Table.setCore,old] using core) id
    · by_cases new : p = T.nextPtr
      · simp [Table.alloc,Table.setCore,new]
      · rcases List.mem_or_eq_of_mem_set listed with old | rfl
        · simpa [Table.alloc,Table.setCore,new] using made job old p making
        · exact absurd (Option.some.inj making).symm new
  | present sock p notify at_sock => exact same rfl rfl (by simp)
  | absent sock p notify missing => exact same rfl rfl (fun _ => id)
  | insert sock p notify find inserts =>
    have hidden (k : SOCKET) : T.find k ≠ some p := fun at_k => sound.making _ member p rfl (.inl (.inl ⟨k,at_k⟩))
    obtain ⟨core,core_eq⟩ := Option.ne_none_iff_exists'.mp (made _ member p rfl)
    have entry {k : SOCKET} {q : Ptr} (at_k : find k = some q) : k = sock ∧ q = p ∨ T.find k = some q := by
      rcases inserts with rfl | ⟨missing,rfl⟩
      · exact .inr at_k
      · by_cases at_sock : k = sock
        · exact .inl ⟨at_sock,(by simpa [at_sock] using at_k : p = q).symm⟩
        · exact .inr (by simpa [at_sock] using at_k)
    refine ⟨fun k q at_k => ?_,fun k k' q at_k at_k' => ?_,fun stage q k removes => ?_,fun job listed q making => ?_⟩
    · rcases entry at_k with ⟨rfl,rfl⟩ | old
      · exact .inl ⟨true,core.2.2,by simp [Table.setCore,core_eq]⟩
      · have differs : q ≠ p := fun equal => hidden k (equal ▸ old)
        exact (named k q old).imp (fun core => by simpa [Table.setCore,differs] using core) id
    · rcases entry at_k with ⟨rfl,rfl⟩ | old <;> rcases entry at_k' with ⟨rfl,equal⟩ | old'
      · rfl
      · exact absurd old' (hidden k')
      · exact absurd (equal ▸ old) (hidden k)
      · exact unique k k' q old old'
    · have at_k := removing stage q k removes
      rcases inserts with rfl | ⟨missing,rfl⟩
      · exact at_k
      · have differs : k ≠ sock := by
          rintro rfl
          simp [missing] at at_k
        simpa [differs] using at_k
    · by_cases equal : q = p
      · simp [Table.setCore,equal,core_eq]
      · rcases List.mem_or_eq_of_mem_set listed with old | rfl
        · simpa [Table.setCore,equal] using made job old q making
        · simp [Task.making] at making
  | addFD sock p notify registered registers => exact same rfl rfl (by simp)
  | announce sock p => exact same rfl rfl (by simp [Task.making])
  | closeListenSocket => exact closed (T.closes_closeFD T.listenSocket) (fun _ => id)
  | release core registered finished fewer unregistered =>
    refine ⟨by simp,by simp,fun stage q k removes => ?_,fun job listed q making => ?_⟩
    · have free : role = .free := (sound.finished finished).1
      simp [free] at removes
    · have makes : ∃ job ∈ tasks, job.making = some q := by
        rcases List.mem_or_eq_of_mem_set listed with old | rfl
        · exact ⟨job,old,making⟩
        · simp [Task.making] at making
      obtain ⟨job,old,making⟩ := makes
      rcases fewer q with kept | ⟨_,k,at_k⟩
      · change core q ≠ none
        exact kept ▸ made job old q making
      · exact absurd (.inl (.inl ⟨k,at_k⟩)) (sound.making job old q making)
  | closeFds _ finished closes => exact closed closes (fun _ => id)

theorem Step.entered {v v' : View} (step : Step v v') (sound : v.Sound) (entered : v.Entered) : v'.Entered := by
  have settled {T : Table} {role role' : Role} {pending pending' : List Ptr} {exited exited' : Bool} {tasks : List Task}
      (entered : Entered ⟨T,role,pending,exited,tasks⟩) (before : ∀ stage p sock, role ≠ .removing stage p sock)
      (after : ∀ stage p sock, role' ≠ .removing stage p sock) : Entered ⟨T,role',pending',exited',tasks⟩ :=
    ⟨fun sock p found => .inl ((entered.named sock p found).resolve_right (before _ p sock)),entered.unique,
      fun stage p sock removes => absurd removes (after stage p sock),entered.made⟩
  cases step with
  | stutter => exact entered
  | deliver T pending tasks told => exact settled entered (by simp) (by simp)
  | event T p pending tasks => exact settled entered (by simp) (by simp)
  | command T fd p pending tasks found => exact settled entered (by simp) (by simp)
  | exit T tasks => exact settled entered (by simp) (by simp)
  | work T role pending tasks T' role' work => exact entered.work sound work
  | call T role pending exited tasks t task T' task' found call => exact entered.call sound found call

/-- An object enters the map when the worker has made it or a thread that was making it is done. -/
theorem Step.find_enters {v v' : View} (step : Step v v') {sock : SOCKET} {p : Ptr} (found : v'.table.find sock = some p) :
    v.table.find sock = some p ∨ v.table.find sock = none ∧
      ((v.role = .holding sock ∧ p = v.table.nextPtr ∧ v'.role = .announcing p sock) ∨
        ∃ (t : Nat) (notify : Bool), v.tasks[t]? = some (.inserting sock p notify) ∧
          v'.tasks[t]? = some (.adding sock p notify)) := by
  have closed {T T' : Table} (closes : T.Closes T') (found : T'.find sock = some p) : T.find sock = some p := by
    obtain ⟨_,_,rfl,_,_⟩ := closes
    exact found
  cases step with
  | work T role pending tasks T' role' work =>
    cases work with
    | add k registered absent registers =>
      by_cases at_k : sock = k
      · subst at_k
        obtain rfl : T.nextPtr = p := by simpa using found
        exact .inr ⟨absent,.inl ⟨rfl,rfl,rfl⟩⟩
      · exact .inl (by simpa [at_k,Table.alloc,Table.setCore] using found)
    | removeErase q k =>
      by_cases at_k : sock = k
      · simp [at_k] at found
      · exact .inl (by simpa [at_k] using found)
    | closeAccepted k => exact .inl (closed (T.closes_closeFD k) found)
    | removeFD q k => exact .inl (closed (T.closes_unregister k) found)
    | removeClose q k => exact .inl (closed (T.closes_closeFD k) found)
    | _ => exact .inl found
  | call T role pending exited tasks t task T' task' at_t call =>
    cases call with
    | insert k q notify find inserts =>
      rcases inserts with rfl | ⟨missing,rfl⟩
      · exact .inl found
      · by_cases at_k : sock = k
        · subst at_k
          obtain rfl : q = p := by simpa using found
          exact .inr ⟨missing,.inr ⟨t,notify,at_t,List.getElem?_set_self (List.getElem?_eq_some_iff.mp at_t).1⟩⟩
        · exact .inl (by simpa [at_k] using found)
    | release core registered finished fewer unregistered => simp at found
    | closeFD k => exact .inl (closed (T.closes_closeFD k) found)
    | closeListenSocket => exact .inl (closed (T.closes_closeFD T.listenSocket) found)
    | closeFds _ finished closes => exact .inl (closed closes found)
    | _ => exact .inl found
  | _ => exact .inl found

theorem Step.find_new {v v' : View} (step : Step v v') {sock : SOCKET} {p : Ptr} (found : v'.table.find sock = some p) :
    v.table.find sock = some p ∨ p = v.table.nextPtr ∨ ∃ task ∈ v.tasks, task.making = some p := by
  rcases step.find_enters found with old | ⟨_,⟨_,made,_⟩ | ⟨t,notify,at_t,_⟩⟩
  · exact .inl old
  · exact .inr (.inl made)
  · exact .inr (.inr ⟨_,List.mem_of_getElem? at_t,rfl⟩)

theorem Step.making_new {v v' : View} (step : Step v v') {task : Task} (member : task ∈ v'.tasks) {p : Ptr}
    (making : task.making = some p) : (∃ task ∈ v.tasks, task.making = some p) ∨ p = v.table.nextPtr := by
  cases step with
  | call T role pending exited tasks t before T' after found call =>
    rcases List.mem_or_eq_of_mem_set member with old | rfl
    · exact .inl ⟨task,old,making⟩
    · exact (call.grows.2.2.2.2 p making).imp (fun was => ⟨before,List.mem_of_getElem? found,was⟩) And.left
  | _ => exact .inl ⟨task,member,making⟩

end View

namespace Sys

/-- The invariant of the process: the queue's, and the table's of both kinds. -/
structure Inv (s : Sys) : Prop where
  control : s.Control
  sound : s.view.Sound
  entered : s.view.Entered

theorem started_inv (config : Config) : Inv config.started :=
  ⟨started_control config,(View.started_blank config).sound,(View.started_blank config).entered⟩

theorem Inv.step {s next : Sys} {act : Act} (inv : Inv s) (taken : s.step act = some next) : Inv next := by
  have step := view_step inv.control taken
  exact ⟨inv.control.step taken,step.sound inv.sound,step.entered inv.sound inv.entered⟩

theorem Inv.kind {s next : Sys} {act : Act} (inv : Inv s) (taken : s.step act = some next) : next.host.kind = s.host.kind :=
  (view_step inv.control taken).kind

theorem Inv.below {s : Sys} (inv : Inv s) {p : Ptr} {object : SocketObject} (live : s.host.heap p = some object) :
    p < s.host.nextPtr :=
  inv.sound.core p (by simp [view,Host.table,live])

/-- An object in the map is under its socket, unless it has just been deleted. -/
theorem Inv.named {s : Sys} (inv : Inv s) {sock : SOCKET} {p : Ptr} {object : SocketObject}
    (found : s.host.findSocketObject sock = some p) (live : s.host.heap p = some object)
    (away : s.view.role ≠ .removing .erase p sock) : object.socketId = sock := by
  obtain ⟨valid,connected,core⟩ := (inv.entered.named sock p found).resolve_right away
  have same : object.core = (sock,valid,connected) := by simpa [view,Host.table,live] using core
  exact congrArg Prod.fst same

theorem run_inv {config : Config} {acts : List Act} {s : Sys} (run : Run config acts s) : Inv s :=
  Transition.exec_invariant_free (fun _ _ _ inv taken => inv.step taken) (started_inv config) run

theorem run_kind {config : Config} {acts : List Act} {s : Sys} (run : Run config acts s) : s.host.kind = config.kind := by
  have kept (s : Sys) (act : Act) (next : Sys) (inv : Inv s ∧ s.host.kind = config.kind) (taken : s.step act = some next) :
      Inv next ∧ next.host.kind = config.kind := ⟨inv.1.step taken,(inv.1.kind taken).trans inv.2⟩
  exact (Transition.exec_invariant_free kept ⟨started_inv config,rfl⟩ run).2

end Sys

end LightServer
