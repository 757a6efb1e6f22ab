import LightServer.Operations
import LightServer.Base.Call

/-! The connection table between the operations of a manager: an entry names a valid object that knows
its socket, and an object leaves the table when it is deleted. -/
namespace LightServer

namespace Table

/-- An object that was made and is there no more. -/
def Gone (p : Ptr) (T : Table) : Prop := p < T.nextPtr ∧ T.core p = none

/-- Each entry but that of the object being removed is sound. -/
structure Entries (T : Table) (role : Role) : Prop where
  below : ∀ p, T.core p ≠ none → p < T.nextPtr
  made : ∀ k p, T.find k = some p → p < T.nextPtr
  unique : ∀ k k' p, T.find k = some p → T.find k' = some p → k = k'
  entry : ∀ k p, T.find k = some p → (∀ stage, role ≠ .removing stage p k) → ∃ connected, T.core p = some (k,true,connected)
  removing : ∀ stage p k, role = .removing stage p k → T.find k = some p ∧ (stage = .erase → T.core p = none) ∧
    (stage ≠ .erase → ∃ connected, T.core p = some (k,false,connected))

theorem Entries.turn {T : Table} {role role' : Role} (entries : T.Entries role) (away : ∀ stage p k, role ≠ .removing stage p k)
    (away' : ∀ stage p k, role' ≠ .removing stage p k) : T.Entries role' :=
  ⟨entries.below,entries.made,entries.unique,fun k p found _ => entries.entry k p found (fun stage => away stage p k),
    fun stage p k at_r => absurd at_r (away' stage p k)⟩

theorem Entries.moved {T T' : Table} {role role' : Role} (entries : T.Entries role) (find : T'.find = T.find)
    (nextPtr : T'.nextPtr = T.nextPtr) (fewer : ∀ p, T'.core p ≠ none → T.core p ≠ none)
    (entry : ∀ k p, T.find k = some p → (∀ stage, role' ≠ .removing stage p k) → ∃ connected, T'.core p = some (k,true,connected))
    (removing : ∀ stage p k, role' = .removing stage p k → T.find k = some p ∧ (stage = .erase → T'.core p = none) ∧
      (stage ≠ .erase → ∃ connected, T'.core p = some (k,false,connected))) : T'.Entries role' := by
  refine ⟨fun p present => ?_,?_,?_,?_,?_⟩
  · rw [nextPtr]
    exact entries.below p (fewer p present)
  · rw [find,nextPtr]
    exact entries.made
  · rw [find]
    exact entries.unique
  · rw [find]
    exact entry
  · rw [find]
    exact removing

namespace Enters

variable {T T' : Table} {role : Role}

private theorem below_alloc {object : SOCKET × Bool × Bool} (below : ∀ p, T.core p ≠ none → p < T.nextPtr)
    (core : T'.core = Function.update T.core T.nextPtr (some object)) (nextPtr : T'.nextPtr = T.nextPtr+1) (p : Ptr)
    (live : T'.core p ≠ none) : p < T'.nextPtr := by
  rw [nextPtr]
  by_cases new : p = T.nextPtr
  · exact new ▸ Nat.lt_succ_self _
  · rw [core,Function.update_of_ne new] at live
    exact Nat.lt_succ_of_lt (below p live)

theorem entries (enters : T.Enters T') (entries : T.Entries role) : T'.Entries role := by
  obtain ⟨below,made,unique,entry,removing⟩ := entries
  cases enters with
  | nothing find core nextPtr =>
    exact Entries.moved ⟨below,made,unique,entry,removing⟩ find nextPtr (by simp [core]) (core ▸ entry) (core ▸ removing)
  | leaked object find core nextPtr =>
    have old {k : SOCKET} {p : Ptr} (found : T.find k = some p) : T'.core p = T.core p := by
      rw [core,Function.update_of_ne (made k p found).ne]
    refine ⟨below_alloc below core nextPtr,fun k p found => ?_,fun k k' p => ?_,fun k p found away => ?_,fun stage p k at_r => ?_⟩
    · rw [nextPtr]
      exact Nat.lt_succ_of_lt (made k p (find ▸ found))
    · rw [find]
      exact unique k k' p
    · rw [find] at found
      rw [old found]
      exact entry k p found away
    · obtain ⟨found,later⟩ := removing stage p k at_r
      rw [find,old found]
      exact ⟨found,later⟩
  | added sock connected absent find core nextPtr =>
    have old {k : SOCKET} {p : Ptr} (found : T.find k = some p) : T'.core p = T.core p := by
      rw [core,Function.update_of_ne (made k p found).ne]
    have found_new {k : SOCKET} {p : Ptr} (found : T'.find k = some p) :
        k = sock ∧ p = T.nextPtr ∨ k ≠ sock ∧ T.find k = some p := by
      rw [find] at found
      by_cases at_sock : k = sock
      · subst at_sock
        rw [Function.update_self] at found
        exact .inl ⟨rfl,(Option.some.inj found).symm⟩
      · rw [Function.update_of_ne at_sock] at found
        exact .inr ⟨at_sock,found⟩
    refine ⟨below_alloc below core nextPtr,fun k p found => ?_,fun k k' p found found' => ?_,fun k p found away => ?_,
      fun stage p k at_r => ?_⟩
    · rw [nextPtr]
      rcases found_new found with ⟨_,rfl⟩ | ⟨_,before⟩
      · exact Nat.lt_succ_self _
      · exact Nat.lt_succ_of_lt (made k p before)
    · rcases found_new found with ⟨rfl,rfl⟩ | ⟨_,before⟩ <;> rcases found_new found' with ⟨rfl,same⟩ | ⟨_,before'⟩
      · rfl
      · exact absurd (made k' _ before') (lt_irrefl _)
      · exact absurd (made k p before) (same ▸ lt_irrefl _)
      · exact unique k k' p before before'
    · rcases found_new found with ⟨rfl,rfl⟩ | ⟨_,before⟩
      · exact ⟨connected,by rw [core,Function.update_self]⟩
      · rw [old before]
        exact entry k p before away
    · obtain ⟨found,later⟩ := removing stage p k at_r
      have other : k ≠ sock := by
        intro same
        simp [← same,found] at absent
      rw [find,Function.update_of_ne other,old found]
      exact ⟨found,later⟩

theorem find_kept (enters : T.Enters T') {k : SOCKET} {p : Ptr} (found : T.find k = some p) : T'.find k = some p := by
  cases enters with
  | nothing find core nextPtr => rwa [find]
  | leaked object find core nextPtr => rwa [find]
  | added sock connected absent find core nextPtr =>
    have other : k ≠ sock := by
      intro same
      simp [← same,found] at absent
    rwa [find,Function.update_of_ne other]

theorem find_new (enters : T.Enters T') {k : SOCKET} {p : Ptr} (found : T'.find k = some p) :
    T.find k = some p ∨ T.nextPtr ≤ p := by
  cases enters with
  | nothing find core nextPtr => exact .inl (find ▸ found)
  | leaked object find core nextPtr => exact .inl (find ▸ found)
  | added sock connected absent find core nextPtr =>
    rw [find] at found
    by_cases same : k = sock
    · rw [same,Function.update_self] at found
      exact .inr (Option.some.inj found).le
    · rw [Function.update_of_ne same] at found
      exact .inl found

theorem nextPtr_le (enters : T.Enters T') : T.nextPtr ≤ T'.nextPtr := by
  cases enters with
  | nothing find core nextPtr => exact nextPtr.ge
  | leaked object find core nextPtr => exact nextPtr ▸ Nat.le_succ _
  | added sock connected absent find core nextPtr => exact nextPtr ▸ Nat.le_succ _

theorem gone (enters : T.Enters T') (p : Ptr) : T'.Gone p ↔ T.Gone p := by
  have fresh {object : SOCKET × Bool × Bool} (core : T'.core = Function.update T.core T.nextPtr (some object))
      (nextPtr : T'.nextPtr = T.nextPtr+1) : T'.Gone p ↔ T.Gone p := by
    rw [Gone,Gone,core,nextPtr]
    by_cases new : p = T.nextPtr
    · simp [new]
    · rw [Function.update_of_ne new]
      exact and_congr_left (fun _ => ⟨fun below => lt_of_le_of_ne (Nat.lt_succ_iff.mp below) new,Nat.lt_succ_of_lt⟩)
  cases enters with
  | nothing find core nextPtr => rw [Gone,Gone,core,nextPtr]
  | leaked object find core nextPtr => exact fresh core nextPtr
  | added sock connected absent find core nextPtr => exact fresh core nextPtr

end Enters

/-- A role outside `RemoveSocketObject`. -/
def Aside (role : Role) : Prop := ∀ stage p k, role ≠ .removing stage p k

/-- What the steps of the worker do to the entries and the objects. -/
inductive Change (T : Table) (role : Role) (T' : Table) (role' : Role) : Prop
  | enters (enters : T.Enters T') (aside : Aside role) (aside' : Aside role')
  | connects (p sock) (aside : Aside role) (aside' : Aside role') (live : T.core p = some (sock,true,false))
      (find : T'.find = T.find) (nextPtr : T'.nextPtr = T.nextPtr)
      (core : T'.core = Function.update T.core p (some (sock,true,true)))
  | begins (fd p sock connected) (free : role = .free) (turned : role' = .removing .deleteFD p sock) (found : T.find fd = some p)
      (live : T.core p = some (sock,true,connected)) (find : T'.find = T.find) (nextPtr : T'.nextPtr = T.nextPtr)
      (core : T'.core = Function.update T.core p (some (sock,false,connected)))
  | closes (stage stage' p sock) (at_r : role = .removing stage p sock) (turned : role' = .removing stage' p sock)
      (early : stage = .deleteFD ∨ stage = .close) (later : stage' = .close ∨ stage' = .delete) (find : T'.find = T.find)
      (nextPtr : T'.nextPtr = T.nextPtr) (core : T'.core = T.core)
  | deletes (p sock) (at_r : role = .removing .delete p sock) (turned : role' = .removing .erase p sock) (find : T'.find = T.find)
      (nextPtr : T'.nextPtr = T.nextPtr) (core : T'.core = Function.update T.core p none)
  | erases (p sock) (at_r : role = .removing .erase p sock) (free : role' = .free)
      (find : T'.find = Function.update T.find sock none) (nextPtr : T'.nextPtr = T.nextPtr) (core : T'.core = T.core)

section work

variable {T T' : Table} {role role' : Role}

theorem Work.change (work : Work T role T' role') : T.Change role T' role' := by
  cases work with
  | rest _ _ settled later =>
    have away : Aside role := by
      rintro stage p k rfl
      simp [Role.settled] at settled
    refine .enters (.of_eq rfl) away ?_
    rcases later with rfl | rfl | ⟨q,sock,_,rfl⟩
    · exact away
    · simp [Aside]
    · simp [Aside]
  | handle p ready => exact .enters (.of_eq rfl) (by simp [Aside]) (by simp [Aside])
  | connect p sock _ kind core later =>
    refine .connects p sock (by simp [Aside]) ?_ core rfl rfl rfl
    rcases later with rfl | rfl <;> simp [Aside]
  | startRead p sock connected core => exact .enters (.of_eq rfl) (by simp [Aside]) (by simp [Aside])
  | doRead p sock => exact .enters (.nothing rfl rfl rfl) (by simp [Aside]) (by simp [Aside])
  | listen kind => exact .enters (.of_eq rfl) (by simp [Aside]) (by simp [Aside])
  | accept sock nonneg unused listening => exact .enters (.nothing rfl rfl rfl) (by simp [Aside]) (by simp [Aside])
  | add sock registered absent registers =>
    exact .enters (.added sock true absent rfl rfl rfl) (by simp [Aside]) (by simp [Aside])
  | leak sock core present => exact .enters (.leaked core rfl rfl rfl) (by simp [Aside]) (by simp [Aside])
  | closeAccepted sock =>
    obtain ⟨find,core,nextPtr⟩ := (T.closes_closeFD sock).entries
    exact .enters (.nothing find core nextPtr) (by simp [Aside]) (by simp [Aside])
  | announce p sock => exact .enters (.nothing rfl rfl rfl) (by simp [Aside]) (by simp [Aside])
  | disconnect fd p sock connected found core => exact .begins fd p sock connected rfl rfl found core rfl rfl rfl
  | removeFD p sock => exact .closes .deleteFD .close p sock rfl rfl (.inl rfl) (.inl rfl) rfl rfl rfl
  | removeClose p sock =>
    obtain ⟨find,core,nextPtr⟩ := (T.closes_closeFD sock).entries
    exact .closes .close .delete p sock rfl rfl (.inr rfl) (.inr rfl) find nextPtr core
  | removeDelete p sock => exact .deletes p sock rfl rfl rfl rfl rfl
  | removeErase p sock => exact .erases p sock rfl rfl rfl rfl rfl

theorem Change.entries (change : T.Change role T' role') (entries : T.Entries role) : T'.Entries role' := by
  cases change with
  | enters enters aside aside' => exact (enters.entries entries).turn aside aside'
  | connects p sock aside aside' live find nextPtr core =>
    refine entries.moved find nextPtr (fun q present => ?_) (fun k q found _ => ?_)
      (fun stage q k at_r => absurd at_r (aside' stage q k))
    · by_cases same : q = p
      · simp [same,live]
      · simpa [core,same] using present
    · obtain ⟨connected,known⟩ := entries.entry k q found (fun stage => aside stage q k)
      by_cases same : q = p
      · subst same
        obtain rfl : sock = k := congrArg Prod.fst (Option.some.inj (live.symm.trans known))
        exact ⟨true,by rw [core,Function.update_self]⟩
      · exact ⟨connected,by rw [core,Function.update_of_ne same,known]⟩
  | begins fd p sock connected free turned found live find nextPtr core =>
    subst free turned
    obtain ⟨_,known⟩ := entries.entry fd p found (by simp)
    obtain rfl : sock = fd := congrArg Prod.fst (Option.some.inj (live.symm.trans known))
    refine entries.moved find nextPtr (fun q present => ?_) (fun k q found' away => ?_) (fun stage q k at_r => ?_)
    · by_cases same : q = p
      · simp [same,live]
      · simpa [core,same] using present
    · have other : q ≠ p := by
        intro same
        subst same
        exact away .deleteFD (by rw [entries.unique k sock q found' found])
      rw [core,Function.update_of_ne other]
      exact entries.entry k q found' (by simp)
    · obtain ⟨rfl,rfl,rfl⟩ := Role.removing.inj at_r
      exact ⟨found,by simp,fun _ => ⟨connected,by rw [core,Function.update_self]⟩⟩
  | closes stage stage' p sock at_r turned early later find nextPtr core =>
    subst turned
    obtain ⟨found,_,live⟩ := entries.removing stage p sock at_r
    refine entries.moved find nextPtr (by simp [core]) (fun k q found' away => ?_) (fun stage'' q k at_r' => ?_)
    · rw [core]
      refine entries.entry k q found' (fun other at_r' => away stage' ?_)
      obtain ⟨_,rfl,rfl⟩ := Role.removing.inj (at_r.symm.trans at_r')
      rfl
    · obtain ⟨rfl,rfl,rfl⟩ := Role.removing.inj at_r'
      rw [core]
      refine ⟨found,?_,fun _ => live ?_⟩
      · rcases later with rfl | rfl <;> simp
      · rcases early with rfl | rfl <;> simp
  | deletes p sock at_r turned find nextPtr core =>
    subst turned
    obtain ⟨found,_,_⟩ := entries.removing .delete p sock at_r
    refine entries.moved find nextPtr (fun q present => ?_) (fun k q found' away => ?_) (fun stage q k at_r' => ?_)
    · by_cases same : q = p
      · simp [core,same] at present
      · simpa [core,same] using present
    · have other : q ≠ p := by
        intro same
        subst same
        exact away .erase (by rw [entries.unique k sock q found' found])
      rw [core,Function.update_of_ne other]
      refine entries.entry k q found' (fun stage at_r' => other ?_)
      exact (Role.removing.inj (at_r.symm.trans at_r')).2.1.symm
    · obtain ⟨rfl,rfl,rfl⟩ := Role.removing.inj at_r'
      exact ⟨found,fun _ => by rw [core,Function.update_self],by simp⟩
  | erases p sock at_r free find nextPtr core =>
    subst free
    obtain ⟨below,made,unique,entry,removing⟩ := entries
    obtain ⟨found,_,_⟩ := removing .erase p sock at_r
    have before {k : SOCKET} {q : Ptr} (found' : T'.find k = some q) : k ≠ sock ∧ T.find k = some q := by
      rw [find] at found'
      by_cases same : k = sock
      · simp [same] at found'
      · exact ⟨same,by rwa [Function.update_of_ne same] at found'⟩
    refine ⟨fun q => ?_,fun k q found' => ?_,fun k k' q found' found'' => ?_,fun k q found' _ => ?_,by simp⟩
    · rw [core,nextPtr]
      exact below q
    · rw [nextPtr]
      exact made k q (before found').2
    · exact unique k k' q (before found').2 (before found'').2
    · obtain ⟨other,found'⟩ := before found'
      rw [core]
      refine entry k q found' (fun stage at_r' => other ?_)
      exact (Role.removing.inj (at_r.symm.trans at_r')).2.2.symm

theorem Change.gone (change : T.Change role T' role') (other : ∀ p sock, role ≠ .removing .delete p sock) (p : Ptr) :
    T'.Gone p ↔ T.Gone p := by
  have live {q : Ptr} {core core' : SOCKET × Bool × Bool} (before : T.core q = some core) (nextPtr : T'.nextPtr = T.nextPtr)
      (after : T'.core = Function.update T.core q (some core')) : T'.Gone p ↔ T.Gone p := by
    rw [Table.Gone,Table.Gone,nextPtr,after]
    by_cases same : p = q
    · simp [same,before]
    · rw [Function.update_of_ne same]
  cases change with
  | enters enters aside aside' => exact enters.gone p
  | connects q sock aside aside' known find nextPtr core => exact live known nextPtr core
  | begins fd q sock connected free turned found known find nextPtr core => exact live known nextPtr core
  | closes stage stage' q sock at_r turned early later find nextPtr core => rw [Table.Gone,Table.Gone,nextPtr,core]
  | deletes q sock at_r turned find nextPtr core => exact absurd at_r (other q sock)
  | erases q sock at_r free find nextPtr core => rw [Table.Gone,Table.Gone,nextPtr,core]

theorem Change.deleted (change : T.Change role T' role') {q : Ptr} {sock : SOCKET} (at_r : role = .removing .delete q sock) :
    T'.nextPtr = T.nextPtr ∧ T'.core = Function.update T.core q none := by
  cases change with
  | enters enters aside aside' => exact absurd at_r (aside .delete q sock)
  | connects p sock' aside aside' known find nextPtr core => exact absurd at_r (aside .delete q sock)
  | begins fd p sock' connected free turned found known find nextPtr core => simp [free] at at_r
  | closes stage stage' p sock' at_r' turned early later find nextPtr core =>
    obtain ⟨rfl,_,_⟩ := Role.removing.inj (at_r'.symm.trans at_r)
    simp at early
  | deletes p sock' at_r' turned find nextPtr core =>
    obtain ⟨_,rfl,_⟩ := Role.removing.inj (at_r'.symm.trans at_r)
    exact ⟨nextPtr,core⟩
  | erases p sock' at_r' free find nextPtr core => simp [at_r'] at at_r

/-- The steps of a removal leave the map alone until the last one, which takes out the entry. -/
theorem Change.removal (change : T.Change role T' role') {stage : RemoveStage} {p : Ptr} {k : SOCKET}
    (at_r : role = .removing stage p k) : T'.nextPtr = T.nextPtr ∧
      ((∃ stage', role' = .removing stage' p k) ∧ T'.find = T.find ∨
        role' = .free ∧ T'.find = Function.update T.find k none) := by
  cases change with
  | enters enters aside aside' => exact absurd at_r (aside stage p k)
  | connects q sock aside aside' known find nextPtr core => exact absurd at_r (aside stage p k)
  | begins fd q sock connected free turned found known find nextPtr core => simp [free] at at_r
  | closes stage' stage'' q sock at_r' turned early later find nextPtr core =>
    obtain ⟨_,rfl,rfl⟩ := Role.removing.inj (at_r'.symm.trans at_r)
    exact ⟨nextPtr,.inl ⟨⟨stage'',turned⟩,find⟩⟩
  | deletes q sock at_r' turned find nextPtr core =>
    obtain ⟨_,rfl,rfl⟩ := Role.removing.inj (at_r'.symm.trans at_r)
    exact ⟨nextPtr,.inl ⟨⟨.erase,turned⟩,find⟩⟩
  | erases q sock at_r' free find nextPtr core =>
    obtain ⟨_,rfl,rfl⟩ := Role.removing.inj (at_r'.symm.trans at_r)
    exact ⟨nextPtr,.inr ⟨free,find⟩⟩

/-- The objects that are no more have been deleted, each once, and no others. -/
structure Accounts (T : Table) (deleted : List Ptr) : Prop where
  once : deleted.Nodup
  gone : ∀ p, p ∈ deleted ↔ T.Gone p

theorem Accounts.same {deleted : List Ptr} (accounts : T.Accounts deleted) (gone : ∀ p, T'.Gone p ↔ T.Gone p) :
    T'.Accounts deleted :=
  ⟨accounts.once,fun p => (accounts.gone p).trans (gone p).symm⟩

theorem Accounts.add {deleted more : List Ptr} (accounts : T.Accounts deleted) (once : more.Nodup)
    (there : ∀ p ∈ more, ¬ T.Gone p) (gone : ∀ p, T'.Gone p ↔ T.Gone p ∨ p ∈ more) : T'.Accounts (deleted ++ more) := by
  refine ⟨accounts.once.append once ?_,fun p => ?_⟩
  · intro p before added
    exact there p added ((accounts.gone p).mp before)
  · rw [List.mem_append,accounts.gone p,gone p]

theorem Change.accounts (change : T.Change role T' role') (entries : T.Entries role) {deleted deleted' : List Ptr}
    (accounts : T.Accounts deleted)
    (logged : (∃ p sock, role = .removing .delete p sock ∧ role' = .removing .erase p sock ∧ deleted' = deleted ++ [p]) ∨
      (∀ p sock, role ≠ .removing .delete p sock) ∧ deleted' = deleted) : T'.Accounts deleted' := by
  rcases logged with ⟨q,sock,at_r,_,rfl⟩ | ⟨other,rfl⟩
  · obtain ⟨nextPtr,core⟩ := change.deleted at_r
    obtain ⟨found,_,live⟩ := entries.removing .delete q sock at_r
    obtain ⟨connected,live⟩ := live (by simp)
    refine accounts.add (by simp) (fun p member gone => ?_) (fun p => ?_)
    · rw [List.mem_singleton.mp member,Table.Gone,live] at gone
      simp at gone
    · rw [Table.Gone,Table.Gone,nextPtr,core,List.mem_singleton]
      by_cases same : p = q
      · simp [same,entries.made sock q found]
      · rw [Function.update_of_ne same]
        simp [same]
  · exact accounts.same (change.gone other)

/-- Only the removal of its object takes an entry out. -/
theorem Change.find_kept (change : T.Change role T' role') (entries : T.Entries role) {k : SOCKET} {p : Ptr}
    (found : T.find k = some p) : T'.find k = some p ∨ role = .removing .erase p k ∧ role' = .free ∧ T'.find k = none := by
  cases change with
  | enters enters aside aside' => exact .inl (enters.find_kept found)
  | connects q sock aside aside' known find nextPtr core => exact .inl (find ▸ found)
  | begins fd q sock connected free turned known live find nextPtr core => exact .inl (find ▸ found)
  | closes stage stage' q sock at_r turned early later find nextPtr core => exact .inl (find ▸ found)
  | deletes q sock at_r turned find nextPtr core => exact .inl (find ▸ found)
  | erases q sock at_r free find nextPtr core =>
    by_cases same : k = sock
    · subst same
      obtain rfl := Option.some.inj (found.symm.trans (entries.removing .erase q k at_r).1)
      exact .inr ⟨at_r,free,by rw [find,Function.update_self]⟩
    · exact .inl (by rw [find,Function.update_of_ne same,found])

end work

end Table

theorem View.Step.change {v v' : View} (step : View.Step v v') (alone : v.tasks = []) :
    v.table.Change v.role v'.table v'.role ∨ v'.table = v.table ∧ v'.role = v.role := by
  cases step with
  | stutter view => exact .inr ⟨rfl,rfl⟩
  | deliver T pending tasks told => exact .inr ⟨rfl,rfl⟩
  | event T p pending tasks => exact .inl (.enters (.of_eq rfl) (by simp [Table.Aside]) (by simp [Table.Aside]))
  | command T fd p pending tasks found => exact .inl (.enters (.of_eq rfl) (by simp [Table.Aside]) (by simp [Table.Aside]))
  | exit T tasks => exact .inr ⟨rfl,rfl⟩
  | work T role pending tasks T' role' work => exact .inl work.change
  | call T role pending exited tasks t task T' task' found call =>
    obtain rfl : tasks = [] := alone
    simp at found

namespace Sys

theorem Move.change {h h' : Host} {w w' : Worker} {act : Act} (move : Move h w act h' w') :
    h.table.Change w.role h'.table w'.role ∨ h'.table = h.table ∧ w'.role = w.role :=
  (move.view []).change rfl

/-- The steps of a manager: a function of its own, the end of `Stop`, or a step of the worker. -/
inductive Operates (s next : Sys) : Prop
  | aside (worker : next.worker = s.worker) (aside : s.host.Aside next.host)
  | stopped (exited : s.worker = .exited) (started : s.host.hasStart = true) (host : next.host = s.host.stopJoined.2)
      (worker : next.worker = s.worker)
  | worked (act) (move : Move s.host s.worker act next.host next.worker)

theorem operates {s next : Sys} {op : Operation} (taken : s.operate op = some next) : s.Operates next := by
  cases op with
  | addTcpSocket sock addr raw now refused =>
    obtain rfl := Option.some.inj taken
    exact .aside rfl (.addTcpSocket sock addr raw now refused s.host)
  | add op raw now refused =>
    simp only [operate] at taken
    split at taken
    · obtain rfl := Option.some.inj taken
      exact .aside rfl (Host.adding_aside op raw now refused s.host)
    · contradiction
  | send sock addr raw buf =>
    obtain rfl := Option.some.inj taken
    exact .aside rfl (.send sock addr raw buf s.host)
  | disconnect sock =>
    obtain rfl := Option.some.inj taken
    exact .aside rfl (Host.Aside.trigger ⟨.of_eq rfl,rfl⟩ .disconnect sock)
  | stop =>
    obtain rfl := Option.some.inj taken
    exact .aside rfl ⟨.of_eq rfl,rfl⟩
  | stopJoined =>
    simp only [operate] at taken
    split at taken
    · rename_i exited
      obtain rfl := Option.some.inj taken
      by_cases started : s.host.hasStart = true
      · exact .stopped exited started rfl rfl
      · refine .aside rfl ?_
        have unchanged : s.host.stopJoined.2 = s.host := by simp [Host.stopJoined,started]
        exact ⟨.of_eq (congrArg Host.table unchanged),congrArg Host.deletions unchanged⟩
    · contradiction
  | work act =>
    obtain ⟨host,worker,move,rfl⟩ := workerAct_move taken
    exact .worked act move

end Sys

end LightServer
