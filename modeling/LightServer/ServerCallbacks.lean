import LightServer.DisconnectOwner

/-! The callbacks of a `TcpServer`. The worker raises all of them, and whether a connection
has been announced and not yet taken down is whether it is in the map and valid. -/
namespace LightServer

namespace View

/-- The connection has been announced, and no disconnect has taken it down. -/
def Open (v : View) (p : Ptr) (sock : SOCKET) : Prop :=
  v.table.find sock = some p ∧ (∃ connected, v.table.core p = some (sock,true,connected)) ∧ v.role ≠ .announcing p sock

/-- What holds of the table of a `TcpServer`: the worker alone makes and removes objects. -/
structure Serving (v : View) : Prop where
  kind : v.table.kind = .tcpServer
  tasks : ∀ task ∈ v.tasks, task = .other
  entered : v.exited = false → ∀ p sock connected, v.Visible p → v.table.core p = some (sock,true,connected) →
    v.table.find sock = some p
  reading : ∀ p sock, v.role = .reading p sock → ∃ connected, v.table.core p = some (sock,true,connected)
  announcing : ∀ p sock, v.role = .announcing p sock → v.table.find sock = some p ∧
    (∃ connected, v.table.core p = some (sock,true,connected)) ∧ ∀ entry ∈ v.table.calls, entry.1 ≠ p
  removing : ∀ stage p sock, v.role = .removing stage p sock → ∀ k connected, v.table.core p ≠ some (k,true,connected)

theorem Blank.serving {v : View} (blank : Blank v) (server : v.table.kind = .tcpServer) : Serving v := by
  refine ⟨server,blank.tasks,fun _ p sock connected _ core => ?_,?_,?_,?_⟩
  · simp [blank.core p] at core
  all_goals simp [blank.free.1]

section Serving

variable {T T' : Table} {role role' : Role} {pending : List Ptr} {exited : Bool} {tasks : List Task}

private theorem Serving.seen (serving : Serving ⟨T,role,pending,false,tasks⟩) (sound : Sound ⟨T,role,pending,false,tasks⟩)
    (work : Table.Work T role T' role') {p : Ptr} {sock : SOCKET} {connected : Bool}
    (seen : Visible ⟨T',role',pending,false,tasks⟩ p) (core : T.core p = some (sock,true,connected)) : T.find sock = some p := by
  refine serving.entered rfl p sock connected ?_ core
  rcases seen with shows | member
  · rcases work.shows shows with old | ⟨rfl,_⟩
    · exact .inl old
    · exact absurd (sound.core T.nextPtr (by simp [core])) (Nat.lt_irrefl _)
  · exact .inr member

private theorem Serving.work (serving : Serving ⟨T,role,pending,false,tasks⟩) (sound : Sound ⟨T,role,pending,false,tasks⟩)
    (entered : Entered ⟨T,role,pending,false,tasks⟩) (work : Table.Work T role T' role') :
    Serving ⟨T',role',pending,false,tasks⟩ := by
  have seen {p : Ptr} {sock : SOCKET} {connected : Bool} (seen : Visible ⟨T',role',pending,false,tasks⟩ p)
      (core : T.core p = some (sock,true,connected)) : T.find sock = some p := serving.seen sound work seen core
  have same (kind : T'.kind = T.kind) (find : T'.find = T.find) (core : T'.core = T.core)
      (reading : ∀ p sock, role' = .reading p sock → ∃ connected, T.core p = some (sock,true,connected))
      (announcing : ∀ p sock, role' ≠ .announcing p sock)
      (removing : ∀ stage p sock, role' = .removing stage p sock → ∃ stage sock, role = .removing stage p sock) :
      Serving ⟨T',role',pending,false,tasks⟩ := by
    refine ⟨kind.trans serving.kind,serving.tasks,fun _ p sock connected visible live => ?_,core ▸ reading,
      fun p sock now => absurd now (announcing p sock),fun stage p sock now => ?_⟩
    · exact find ▸ seen visible (core ▸ live)
    · obtain ⟨_,_,before⟩ := removing stage p sock now
      exact core ▸ serving.removing _ p _ before
  have closed (closes : T.Closes T') (reading : ∀ p sock, role' ≠ .reading p sock)
      (announcing : ∀ p sock, role' ≠ .announcing p sock)
      (removing : ∀ stage p sock, role' = .removing stage p sock → ∃ stage sock, role = .removing stage p sock) :
      Serving ⟨T',role',pending,false,tasks⟩ := by
    obtain ⟨_,_,rfl,_,_⟩ := closes
    exact same rfl rfl rfl (fun p sock now => absurd now (reading p sock)) announcing removing
  cases work with
  | rest _ _ settled later =>
    rcases later with rfl | rfl | ⟨q,k,rfl,rfl⟩
    · refine same rfl rfl rfl serving.reading (fun p sock now => ?_) (fun stage p sock now => ⟨stage,sock,now⟩)
      simp [now,Role.settled] at settled
    · exact same rfl rfl rfl (by simp) (by simp) (by simp)
    · exact same rfl rfl rfl (by simp) (by simp) (by simp)
  | handle p ready => exact same rfl rfl rfl (by simp) (by simp) (by simp)
  | connect p sock _ kind core later => simp [show T.kind = .tcpServer from serving.kind] at kind
  | startRead p sock connected core =>
    refine same rfl rfl rfl (fun q k now => ?_) (by simp) (by simp)
    obtain ⟨rfl,rfl⟩ := Role.reading.inj now
    exact ⟨connected,core⟩
  | doRead p sock => exact same rfl rfl rfl serving.reading (by simp) (by simp)
  | listen kind => exact same rfl rfl rfl (by simp) (by simp) (by simp)
  | accept sock nonneg unused listening => exact same rfl rfl rfl (by simp) (by simp) (by simp)
  | add sock registered absent registers =>
    refine ⟨serving.kind,serving.tasks,fun _ p k connected visible core => ?_,by simp,fun p k now => ?_,by simp⟩
    · by_cases new : p = T.nextPtr
      · obtain ⟨rfl,_⟩ : sock = k ∧ _ := by simpa [new,Table.alloc,Table.setCore] using core
        simp [new]
      · have found := seen visible (by simpa [new,Table.alloc,Table.setCore] using core)
        have differs : k ≠ sock := by
          rintro rfl
          simp [absent] at found
        simpa [differs] using found
    · obtain ⟨rfl,rfl⟩ := Role.announcing.inj now
      refine ⟨by simp,⟨true,by simp [Table.alloc,Table.setCore]⟩,fun entry member => ?_⟩
      exact (sound.calls entry member).ne
  | leak sock core present =>
    refine ⟨serving.kind,serving.tasks,fun _ p k connected visible live => ?_,by simp,by simp,by simp⟩
    have old : p ≠ T.nextPtr := (sound.visible p visible).ne
    exact seen visible (by simpa [old,Table.alloc,Table.setCore] using live)
  | closeAccepted sock => exact closed (T.closes_closeFD sock) (by simp) (by simp) (by simp)
  | announce p sock => exact same rfl rfl rfl (by simp) (by simp) (by simp)
  | disconnect fd p sock connected found core =>
    refine ⟨serving.kind,serving.tasks,fun _ q k valid visible live => ?_,by simp,by simp,fun stage q k now => ?_⟩
    · have differs : q ≠ p := by
        rintro rfl
        simp [Table.record,Table.setCore] at live
      exact seen visible (by simpa [differs,Table.record,Table.setCore] using live)
    · obtain ⟨_,rfl,rfl⟩ := Role.removing.inj now
      simp [Table.record,Table.setCore]
  | removeFD p sock =>
    exact same rfl rfl rfl (by simp) (by simp) (fun _ q k now => ⟨.deleteFD,sock,by simp [(Role.removing.inj now).2.1]⟩)
  | removeClose p sock =>
    exact closed (T.closes_closeFD sock) (by simp) (by simp)
      (fun _ q k now => ⟨.close,sock,by simp [(Role.removing.inj now).2.1]⟩)
  | removeDelete p sock =>
    refine ⟨serving.kind,serving.tasks,fun _ q k valid visible live => ?_,by simp,by simp,fun stage q k now => ?_⟩
    · have differs : q ≠ p := by
        rintro rfl
        simp [Table.setCore] at live
      exact seen visible (by simpa [differs,Table.setCore] using live)
    · obtain ⟨_,rfl,rfl⟩ := Role.removing.inj now
      simp [Table.setCore]
  | removeErase p sock =>
    refine ⟨serving.kind,serving.tasks,fun _ q k valid visible live => ?_,by simp,by simp,by simp⟩
    have found := seen visible live
    have differs : k ≠ sock := by
      rintro rfl
      obtain rfl : p = q := Option.some.inj ((entered.removing _ _ _ rfl).symm.trans found)
      exact serving.removing _ _ _ rfl k valid live
    simpa [differs] using found

private theorem Serving.call (serving : Serving ⟨T,role,pending,exited,tasks⟩) (sound : Sound ⟨T,role,pending,exited,tasks⟩)
    {t : Nat} {task task' : Task} (found : tasks[t]? = some task) (call : Table.Call T exited task T' task') :
    Serving ⟨T',role,pending,exited,tasks.set t task'⟩ := by
  have tasks' (other : task' = .other) : ∀ job ∈ tasks.set t task', job = .other := by
    intro job member
    rcases List.mem_or_eq_of_mem_set member with old | rfl
    · exact serving.tasks job old
    · exact other
  have free (finished : exited = true) : role = .free := (sound.finished finished).1
  obtain rfl : task = .other := serving.tasks task (List.mem_of_getElem? found)
  have closed (closes : T.Closes T') (other : task' = .other) : Serving ⟨T',role,pending,exited,tasks.set t task'⟩ := by
    refine ⟨?_,tasks' other,fun working p sock connected visible core => ?_,?_,?_,?_⟩ <;> obtain ⟨_,_,rfl,_,fewer⟩ := closes
    · exact serving.kind
    · refine serving.entered working p sock connected ?_ core
      rcases visible with (at_sock | ⟨fd,registered⟩ | object) | member
      · exact .inl (.inl at_sock)
      · exact .inl (.inr (.inl ⟨fd,fewer fd p registered⟩))
      · exact .inl (.inr (.inr object))
      · exact .inr member
    · exact serving.reading
    · exact serving.announcing
    · exact serving.removing
  cases call with
  | rest _ => exact ⟨serving.kind,tasks' rfl,serving.entered,serving.reading,serving.announcing,serving.removing⟩
  | connect kind => exact absurd serving.kind kind
  | closeListenSocket => exact closed (T.closes_closeFD T.listenSocket) rfl
  | release core registered finished fewer unregistered =>
    refine ⟨serving.kind,tasks' rfl,fun working => ?_,?_,?_,?_⟩
    · exact absurd finished (by simpa using working)
    all_goals simp [free finished]
  | closeFds _ finished closes => exact closed closes rfl

end Serving

theorem Step.serving {v v' : View} (step : Step v v') (sound : v.Sound) (entered : v.Entered) (serving : v.Serving) :
    v'.Serving := by
  cases step with
  | stutter => exact serving
  | deliver T pending tasks told =>
    refine ⟨serving.kind,serving.tasks,fun _ p sock connected visible core => ?_,by simp,by simp,by simp⟩
    refine serving.entered rfl p sock connected ?_ core
    rcases visible with shows | member
    · exact .inl shows
    · exact .inl (.inr (.inl (told p member)))
  | event T p pending tasks =>
    refine ⟨serving.kind,serving.tasks,fun _ q sock connected visible core => ?_,by simp,by simp,by simp⟩
    refine serving.entered rfl q sock connected ?_ core
    rcases visible with (at_sock | registered | object) | member
    · exact .inl (.inl at_sock)
    · exact .inl (.inr (.inl registered))
    · exact .inr (by simp [Option.some.inj object])
    · exact .inr (by simp [member])
  | command T fd p pending tasks found =>
    refine ⟨serving.kind,serving.tasks,fun _ q sock connected visible core => ?_,by simp,by simp,by simp⟩
    refine serving.entered rfl q sock connected ?_ core
    rcases visible with (at_sock | registered | object) | member
    · exact .inl (.inl at_sock)
    · exact .inl (.inr (.inl registered))
    · exact .inl (.inl ⟨fd,Option.some.inj object ▸ found⟩)
    · exact .inr member
  | exit T tasks => exact ⟨serving.kind,serving.tasks,by simp,by simp,by simp,by simp⟩
  | work T role pending tasks T' role' work => exact serving.work sound entered work
  | call T role pending exited tasks t task T' task' found call => exact serving.call sound found call

/-- Of the connections that are looked at, at most one is in the map. -/
theorem Entered.alone {v : View} (entered : v.Entered) {about : About} {p q : Ptr} {sock k : SOCKET}
    (selected : about.selects p sock = true) (selected' : about.selects q k = true) (found : v.table.find sock = some p)
    (found' : v.table.find k = some q) : q = p ∧ k = sock := by
  cases about with
  | socket fd =>
    obtain rfl : sock = fd := by simpa [About.selects] using selected
    obtain rfl : k = sock := by simpa [About.selects] using selected'
    exact ⟨Option.some.inj (found'.symm.trans found),rfl⟩
  | object r =>
    obtain rfl : p = r := by simpa [About.selects] using selected
    obtain rfl : q = p := by simpa [About.selects] using selected'
    exact ⟨rfl,entered.unique k sock q found' found⟩

def Opens (about : About) (v : View) : Prop := ∃ p sock, about.selects p sock = true ∧ v.Open p sock

/-- The callbacks so far are those of sessions, and the last one is going on while its connection
is in the map. `strict` says that the map is not emptied at the end of the worker. -/
def Told (about : About) (strict : Prop) (v : View) : Prop :=
  ∃ stage, Session.replay about.again (v.table.said about) = some stage ∧ (v.Opens about → stage = .live) ∧
    (stage = .live → v.Opens about ∨ ¬ strict ∧ v.exited = true)

theorem Blank.told {v : View} (blank : Blank v) (about : About) (strict : Prop) : Told about strict v := by
  refine ⟨.fresh,by simp [Table.said,blank.calls,Session.replay],?_,by simp⟩
  rintro ⟨p,sock,_,found,_⟩
  simp [blank.find sock] at found

section Told

variable {about : About} {strict : Prop} {v v' : View}

private theorem Told.same (told : Told about strict v) (said : v'.table.said about = v.table.said about)
    (opens : ∀ p sock, about.selects p sock = true → (v'.Open p sock ↔ v.Open p sock))
    (finished : v.exited = true → v'.exited = true) :
    Told about strict v' := by
  obtain ⟨stage,replayed,live,opened⟩ := told
  have iff : v'.Opens about ↔ v.Opens about :=
    exists_congr (fun p => exists_congr (fun sock => and_congr_right (opens p sock)))
  exact ⟨stage,said ▸ replayed,fun now => live (iff.mp now),fun now => (opened now).imp iff.mpr (And.imp id finished)⟩

private theorem open_same (find : v'.table.find = v.table.find) (core : v'.table.core = v.table.core)
    (before : ∀ p sock, v.role ≠ .announcing p sock) (after : ∀ p sock, v'.role ≠ .announcing p sock) (p : Ptr) (sock : SOCKET) :
    v'.Open p sock ↔ v.Open p sock := by
  simp only [Open,find,core,ne_eq,before p sock,after p sock,not_false_eq_true]

variable {T T' : Table} {role role' : Role} {pending : List Ptr} {exited : Bool} {tasks : List Task}

private theorem Told.work (told : Told about strict ⟨T,role,pending,false,tasks⟩) (serving : Serving ⟨T,role,pending,false,tasks⟩)
    (sound : Sound ⟨T,role,pending,false,tasks⟩) (entered : Entered ⟨T,role,pending,false,tasks⟩)
    (work : Table.Work T role T' role') : Told about strict ⟨T',role',pending,false,tasks⟩ := by
  have same (calls : T'.calls = T.calls) (find : T'.find = T.find) (core : T'.core = T.core)
      (before : ∀ p sock, role ≠ .announcing p sock) (after : ∀ p sock, role' ≠ .announcing p sock) :
      Told about strict ⟨T',role',pending,false,tasks⟩ :=
    told.same (by simp only [Table.said,calls]) (fun p sock _ => open_same find core before after p sock) id
  have closed (closes : T.Closes T') (before : ∀ p sock, role ≠ .announcing p sock)
      (after : ∀ p sock, role' ≠ .announcing p sock) : Told about strict ⟨T',role',pending,false,tasks⟩ := by
    obtain ⟨_,_,rfl,_,_⟩ := closes
    exact same rfl rfl rfl before after
  have below {p : Ptr} {sock : SOCKET} (found : T.find sock = some p) : p ≠ T.nextPtr :=
    (sound.visible p (.inl (.inl ⟨sock,found⟩))).ne
  cases work with
  | rest _ _ settled later =>
    have before (p : Ptr) (sock : SOCKET) : role ≠ .announcing p sock := by
      rintro rfl
      simp [Role.settled] at settled
    apply same rfl rfl rfl before
    intro p sock
    rcases later with rfl | rfl | ⟨q,k,rfl,rfl⟩
    · exact before p sock
    · simp
    · simp
  | handle p ready => exact same rfl rfl rfl (by simp) (by simp)
  | connect p sock _ kind core later => simp [show T.kind = .tcpServer from serving.kind] at kind
  | startRead p sock connected core => exact same rfl rfl rfl (by simp) (by simp)
  | doRead p sock =>
    by_cases selected : about.selects p sock = true
    · obtain ⟨stage,replayed,live,opened⟩ := told
      obtain ⟨connected,core⟩ := serving.reading p sock rfl
      have found := serving.entered rfl p sock connected (.inl (.inr (.inr rfl))) core
      obtain rfl := live ⟨p,sock,selected,found,⟨connected,core⟩,by simp⟩
      refine ⟨.live,?_,fun _ => rfl,fun _ => .inl ⟨p,sock,selected,found,⟨connected,core⟩,by simp⟩⟩
      dsimp only at replayed ⊢
      rw [Table.said_record,if_pos selected,Session.replay_append,replayed]
      rfl
    · exact told.same (Table.said_other selected) (fun q k _ => open_same rfl rfl (by simp) (by simp) q k) id
  | listen kind => exact same rfl rfl rfl (by simp) (by simp)
  | accept sock nonneg unused listening => exact same rfl rfl rfl (by simp) (by simp)
  | add sock registered absent registers =>
    refine told.same rfl (fun p k _ => ⟨?_,?_⟩) id
    · rintro ⟨found,⟨connected,core⟩,silent⟩
      have differs : k ≠ sock := by
        rintro rfl
        obtain rfl : T.nextPtr = p := by simpa using found
        exact silent rfl
      have found : T.find k = some p := by simpa [differs] using found
      exact ⟨found,⟨connected,by simpa [Table.alloc,Table.setCore,below found] using core⟩,by simp⟩
    · rintro ⟨found,⟨connected,core⟩,_⟩
      have differs : k ≠ sock := by
        rintro rfl
        simp [show T.find k = none from absent] at found
      have old := below found
      refine ⟨by simpa [differs] using found,⟨connected,by simpa [Table.alloc,Table.setCore,old] using core⟩,fun now => ?_⟩
      exact old (Role.announcing.inj now).1.symm
  | leak sock core present =>
    refine told.same rfl (fun p k _ => and_congr_right (fun found => and_congr_left (fun _ => ?_))) id
    simp [Table.alloc,Table.setCore,below (show T.find k = some p from found)]
  | closeAccepted sock => exact closed (T.closes_closeFD sock) (by simp) (by simp)
  | announce p sock =>
    obtain ⟨found,core,unheard⟩ := serving.announcing p sock rfl
    dsimp only at found core unheard
    by_cases selected : about.selects p sock = true
    · obtain ⟨stage,replayed,live,opened⟩ := told
      have waiting : stage ≠ .live := by
        intro now
        rcases opened now with ⟨q,k,selected',found',_,silent⟩ | ⟨_,finished⟩
        · obtain ⟨rfl,rfl⟩ := entered.alone selected selected' found found'
          exact silent rfl
        · simp at finished
      refine ⟨.live,?_,fun _ => rfl,fun _ => .inl ⟨p,sock,selected,found,core,by simp⟩⟩
      dsimp only at replayed ⊢
      rw [Table.said_record,if_pos selected,Session.replay_append,replayed]
      cases about with
      | socket k =>
        cases stage with
        | live => exact absurd rfl waiting
        | _ => rfl
      | object q =>
        -- a connection that is being announced has had no callback yet
        obtain rfl : p = q := by simpa [About.selects] using selected
        rw [Table.said_nothing unheard] at replayed
        obtain rfl := Option.some.inj replayed
        rfl
    · refine told.same (Table.said_other selected) (fun q k selected' => and_congr_right
        (fun _ => and_congr_right (fun _ => ?_))) id
      refine iff_of_true (by simp) (fun now => selected ?_)
      obtain ⟨rfl,rfl⟩ := Role.announcing.inj now
      exact selected'
  | disconnect fd p sock connected found core =>
    obtain ⟨_,_,at_fd⟩ := (entered.named fd p found).resolve_right (by simp)
    dsimp only at at_fd
    obtain rfl : sock = fd := by simpa [core] using congrArg (Option.map Prod.fst) at_fd
    have down (k : SOCKET) : ¬ Open ⟨(T.setCore p (some (sock,false,connected))).record p sock .closed,
      .removing .deleteFD p sock,pending,false,tasks⟩ p k := by
      rintro ⟨_,⟨_,now⟩,_⟩
      simp [Table.record,Table.setCore] at now
    by_cases selected : about.selects p sock = true
    · obtain ⟨stage,replayed,live,opened⟩ := told
      obtain rfl := live ⟨p,sock,selected,found,⟨connected,core⟩,by simp⟩
      refine ⟨.finished,?_,?_,by simp⟩
      · dsimp only at replayed ⊢
        rw [Table.said_record,if_pos selected,Session.replay_append,
          show (T.setCore p (some (sock,false,connected))).said about = T.said about from rfl,replayed]
        rfl
      · rintro ⟨q,k,selected',now⟩
        obtain ⟨rfl,_⟩ := entered.alone selected selected' found now.1
        exact absurd now (down k)
    · refine told.same (Table.said_other selected) (fun q k selected' => ?_) id
      by_cases equal : q = p
      · subst equal
        refine iff_of_false (down k) (fun before => selected ?_)
        exact entered.unique sock k q found before.1 ▸ selected'
      · simp [Open,Table.record,Table.setCore,equal]
  | removeFD p sock => exact same rfl rfl rfl (by simp) (by simp)
  | removeClose p sock => exact closed (T.closes_closeFD sock) (by simp) (by simp)
  | removeDelete p sock =>
    refine told.same rfl (fun q k _ => and_congr_right (fun _ => and_congr (exists_congr (fun connected => ?_)) (by simp))) id
    by_cases equal : q = p
    · subst equal
      simp [Table.setCore,show ∀ k c, T.core q ≠ some (k,true,c) from serving.removing _ q sock rfl]
    · simp [Table.setCore,equal]
  | removeErase p sock =>
    refine told.same rfl (fun q k _ => ?_) id
    by_cases erased : k = sock
    · subst erased
      apply iff_of_false (fun now => by simpa using now.1)
      intro before
      obtain rfl : p = q := Option.some.inj ((entered.removing _ _ _ rfl).symm.trans before.1)
      obtain ⟨connected,core⟩ := before.2.1
      exact serving.removing _ _ _ rfl k connected core
    · simp [Open,erased]

private theorem Told.call (told : Told about strict ⟨T,role,pending,exited,tasks⟩)
    (serving : Serving ⟨T,role,pending,exited,tasks⟩)
    {t : Nat} {task task' : Task} (found : tasks[t]? = some task) (call : Table.Call T exited task T' task')
    (kept : strict → exited = true → T'.find = T.find) : Told about strict ⟨T',role,pending,exited,tasks.set t task'⟩ := by
  obtain rfl : task = .other := serving.tasks task (List.mem_of_getElem? found)
  have closed (closes : T.Closes T') : Told about strict ⟨T',role,pending,exited,tasks.set t task'⟩ := by
    obtain ⟨_,_,rfl,_,_⟩ := closes
    exact told.same rfl (fun _ _ _ => Iff.rfl) id
  cases call with
  | rest _ => exact told.same rfl (fun _ _ _ => Iff.rfl) id
  | connect kind => exact absurd serving.kind kind
  | closeListenSocket => exact closed (T.closes_closeFD T.listenSocket)
  | release core registered finished fewer unregistered =>
    obtain ⟨stage,replayed,live,opened⟩ := told
    refine ⟨stage,replayed,?_,fun now => .inr ⟨fun strictly => ?_,finished⟩⟩
    · rintro ⟨p,sock,_,found',_⟩
      simp at found'
    · rcases opened now with ⟨p,sock,_,found',_⟩ | ⟨loose,_⟩
      · simp [← show (fun _ => none) = T.find from kept strictly finished] at found'
      · exact loose strictly
  | closeFds _ finished closes => exact closed closes

end Told

theorem Step.told {v v' : View} (step : Step v v') (sound : v.Sound) (entered : v.Entered) (serving : v.Serving)
    {about : About} {strict : Prop} (kept : strict → v.exited = true → v'.table.find = v.table.find)
    (told : Told about strict v) :
    Told about strict v' := by
  have settled {T : Table} {role role' : Role} {pending pending' : List Ptr} {exited' : Bool} {tasks : List Task}
      (told : Told about strict ⟨T,role,pending,false,tasks⟩) (before : ∀ p sock, role ≠ .announcing p sock)
      (after : ∀ p sock, role' ≠ .announcing p sock) : Told about strict ⟨T,role',pending',exited',tasks⟩ :=
    told.same rfl (fun p sock _ => by simp only [Open,ne_eq,before p sock,after p sock]) (by simp)
  cases step with
  | stutter => exact told
  | deliver T pending tasks _ => exact settled told (by simp) (by simp)
  | event T p pending tasks => exact settled told (by simp) (by simp)
  | command T fd p pending tasks found => exact settled told (by simp) (by simp)
  | exit T tasks => exact settled told (by simp) (by simp)
  | work T role pending tasks T' role' work => exact told.work serving sound entered work
  | call T role pending exited tasks t task T' task' found call => exact told.call serving found call kept

end View

namespace Sys

/-- The invariant of a `TcpServer`, with the callbacks about one fd or one connection. -/
structure ServerInv (about : About) (strict : Prop) (s : Sys) : Prop where
  inv : s.Inv
  serving : s.view.Serving
  told : s.view.Told about strict

theorem started_serverInv (config : Config) (server : config.kind = .tcpServer) (about : About) (strict : Prop) :
    ServerInv about strict config.started :=
  ⟨started_inv config,(View.started_blank config).serving server,(View.started_blank config).told about strict⟩

theorem ServerInv.step {about : About} {strict : Prop} {s next : Sys} {act : Act} (inv : ServerInv about strict s)
    (taken : s.step act = some next) (kept : strict → s.worker = .exited → next.host.table.find = s.host.table.find) :
    ServerInv about strict next := by
  have step := view_step inv.inv.control taken
  exact ⟨inv.inv.step taken,step.serving inv.inv.sound inv.inv.entered inv.serving,
    step.told inv.inv.sound inv.inv.entered inv.serving
      (fun strictly finished => kept strictly (of_decide_eq_true finished)) inv.told⟩

/-- The callbacks for an fd are whole sessions, one after the other, and the beginning of one. -/
theorem server_callbacks {config : Config} {acts : List Act} {s : Sys} (run : Run config acts s)
    (server : config.kind = .tcpServer) (fd : SOCKET) : Session.Repeated (s.host.table.said (.socket fd)) := by
  have inv : ServerInv (.socket fd) False s :=
    Transition.exec_invariant_free (fun _ _ _ inv taken => inv.step taken False.elim)
      (started_serverInv config server (.socket fd) False) run
  obtain ⟨stage,replayed,_⟩ := inv.told
  exact (Session.repeated_iff _).mpr (replayed ▸ rfl)

/-- Two connections that had the same fd, each taken down. -/
theorem reused_socket_repeated :
    ∃ s, Run (.plain .tcpServer 2) (reusedSocket 19 19) s ∧
      s.host.table.said (.socket 7) = [.opened,.closed,.opened,.closed] ∧ Session.Repeated (s.host.table.said (.socket 7)) := by
  obtain ⟨s,run,said⟩ := run_reaches (.plain .tcpServer 2) (reusedSocket 19 19)
    (fun s => s.host.table.said (.socket 7) = [.opened,.closed,.opened,.closed]) (by decide +kernel)
  exact ⟨s,run,said,server_callbacks run rfl 7⟩

end Sys

end LightServer
