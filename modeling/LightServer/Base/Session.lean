import Mathlib.Data.List.Basic
import Mathlib.Data.List.Infix

/-! The order of the calls made about a session: it is opened once, used any
number of times and closed once. -/
namespace Session

inductive Call
  | opened
  | used
  | closed
  deriving DecidableEq

inductive Stage
  | fresh
  | live
  | finished
  deriving DecidableEq

/-- One call; `again` says whether a name may be given to a new session once the
last one is over. -/
def advance (again : Bool) : Stage → Call → Option Stage
  | .fresh, .opened => some .live
  | .live, .used => some .live
  | .live, .closed => some .finished
  | .finished, .opened => if again then some .live else none
  | _, _ => none

def replay (again : Bool) (calls : List Call) : Option Stage := calls.foldlM (advance again) .fresh

theorem replay_append (again : Bool) (calls : List Call) (call : Call) :
    replay again (calls++[call]) = (replay again calls).bind (fun stage => advance again stage call) := by
  simp [replay,List.foldlM_append]

/-- A whole session. -/
def Whole (calls : List Call) : Prop :=
  ∃ uses, calls = .opened::List.replicate uses .used ++ [.closed]

/-- An initial part of one session. -/
def Single (calls : List Call) : Prop := ∃ session, Whole session ∧ calls <+: session

/-- An initial part of sessions that follow one another. -/
def Repeated (calls : List Call) : Prop :=
  ∃ sessions : List (List Call), (∀ session ∈ sessions, Whole session) ∧ calls <+: sessions.flatten

theorem Single.of_prefix {calls longer : List Call} (single : Single longer) (before : calls <+: longer) : Single calls :=
  single.imp (fun _ whole => ⟨whole.1,before.trans whole.2⟩)

private theorem uses_stay (again : Bool) (uses : Nat) :
    (List.replicate uses Call.used).foldlM (advance again) Stage.live = some .live := by
  induction uses with
  | zero => rfl
  | succ uses ih => simpa [List.replicate_succ,advance] using ih

private theorem whole_ends (again : Bool) {session : List Call} (whole : Whole session)
    {stage : Stage} (ready : advance again stage .opened = some .live) :
    session.foldlM (advance again) stage = some .finished := by
  obtain ⟨uses,rfl⟩ := whole
  simp only [List.cons_append,List.foldlM_cons,List.foldlM_append,ready,uses_stay,bind,Option.bind]
  rfl

private theorem prefix_accepted (again : Bool) {calls longer : List Call} (before : calls <+: longer)
    {stage : Stage} (accepted : (longer.foldlM (advance again) stage).isSome) :
    (calls.foldlM (advance again) stage).isSome := by
  obtain ⟨rest,rfl⟩ := before
  rw [List.foldlM_append] at accepted
  cases first : calls.foldlM (advance again) stage with
  | none => simp [first] at accepted
  | some later => rfl

private theorem repeated_accepted (sessions : List (List Call)) (whole : ∀ session ∈ sessions, Whole session)
    {stage : Stage} (ready : advance true stage .opened = some .live) :
    (sessions.flatten.foldlM (advance true) stage).isSome := by
  induction sessions generalizing stage with
  | nil => rfl
  | cons session rest ih =>
    rw [List.flatten_cons,List.foldlM_append,whole_ends true (whole session (by simp)) ready]
    exact ih (fun other member => whole other (by simp [member])) rfl

/-- What the calls look like when the replay has come to a stage. -/
private def Shape (again : Bool) (calls : List Call) : Stage → Prop
  | .fresh => calls = []
  | .live => ∃ sessions uses, (∀ session ∈ sessions, Whole session) ∧ (again = false → sessions = []) ∧
      calls = sessions.flatten ++ .opened::List.replicate uses .used
  | .finished => ∃ sessions last, (∀ session ∈ sessions, Whole session) ∧ (again = false → sessions = []) ∧
      Whole last ∧ calls = sessions.flatten ++ last

private theorem replay_shape (again : Bool) (calls : List Call) (stage : Stage)
    (replayed : replay again calls = some stage) : Shape again calls stage := by
  induction calls using List.reverseRecOn generalizing stage with
  | nil =>
    have same : Stage.fresh = stage := Option.some.inj replayed
    subst same
    rfl
  | append_singleton calls call ih =>
    rw [replay_append,Option.bind_eq_some_iff] at replayed
    obtain ⟨before,earlier,last⟩ := replayed
    have shape := ih before earlier
    cases before with
    | fresh =>
      cases call <;> simp only [advance,Option.some.injEq,reduceCtorEq] at last
      subst last
      have empty : calls = [] := shape
      exact ⟨[],0,by simp,by simp,by simp [empty]⟩
    | live =>
      obtain ⟨sessions,uses,whole,first,rfl⟩ := shape
      cases call <;> simp only [advance,Option.some.injEq,reduceCtorEq] at last
      · subst last
        exact ⟨sessions,uses+1,whole,first,by simp [List.replicate_succ']⟩
      · subst last
        exact ⟨sessions,_,whole,first,⟨uses,rfl⟩,by simp⟩
    | finished =>
      obtain ⟨sessions,done,whole,first,ended,rfl⟩ := shape
      cases call <;> simp only [advance,reduceCtorEq] at last
      cases again
      · simp at last
      · have same : Stage.live = stage := by simpa using last
        subst same
        refine ⟨sessions++[done],0,?_,by simp,by simp⟩
        intro session member
        rcases List.mem_append.mp member with old | new
        · exact whole session old
        · exact (List.mem_singleton.mp new) ▸ ended

/-- The calls form an initial part of sessions that follow one another exactly when
the replay with reuse accepts them. -/
theorem repeated_iff (calls : List Call) : Repeated calls ↔ (replay true calls).isSome := by
  constructor
  · rintro ⟨sessions,whole,before⟩
    exact prefix_accepted true before (repeated_accepted sessions whole rfl)
  · intro accepted
    obtain ⟨stage,replayed⟩ := Option.isSome_iff_exists.mp accepted
    have shape := replay_shape true calls stage replayed
    cases stage with
    | fresh => exact ⟨[],by simp,shape ▸ List.nil_prefix⟩
    | live =>
      obtain ⟨sessions,uses,whole,_,rfl⟩ := shape
      refine ⟨sessions++[.opened::List.replicate uses .used ++ [.closed]],?_,?_⟩
      · intro session member
        rcases List.mem_append.mp member with old | new
        · exact whole session old
        · exact (List.mem_singleton.mp new) ▸ ⟨uses,rfl⟩
      · exact ⟨[.closed],by simp⟩
    | finished =>
      obtain ⟨sessions,last,whole,_,ended,rfl⟩ := shape
      refine ⟨sessions++[last],?_,by simp⟩
      intro session member
      rcases List.mem_append.mp member with old | new
      · exact whole session old
      · exact (List.mem_singleton.mp new) ▸ ended

/-- The calls form an initial part of one session exactly when the replay without
reuse accepts them. -/
theorem single_iff (calls : List Call) : Single calls ↔ (replay false calls).isSome := by
  constructor
  · rintro ⟨session,whole,before⟩
    have ended : (session.foldlM (advance false) Stage.fresh).isSome := by
      rw [whole_ends false whole rfl]
      rfl
    exact prefix_accepted false before ended
  · intro accepted
    obtain ⟨stage,replayed⟩ := Option.isSome_iff_exists.mp accepted
    have shape := replay_shape false calls stage replayed
    cases stage with
    | fresh => exact ⟨_,⟨0,rfl⟩,shape ▸ List.nil_prefix⟩
    | live =>
      obtain ⟨sessions,uses,_,first,rfl⟩ := shape
      exact ⟨_,⟨uses,rfl⟩,[.closed],by simp [first rfl]⟩
    | finished =>
      obtain ⟨sessions,last,_,first,ended,rfl⟩ := shape
      exact ⟨last,ended,by simp [first rfl]⟩

theorem replay_fresh {again : Bool} {calls : List Call} (replayed : replay again calls = some .fresh) : calls = [] :=
  replay_shape again calls .fresh replayed

/-- A session that is over was closed once. -/
theorem replay_finished {calls : List Call} (replayed : replay false calls = some .finished) : calls.count .closed = 1 := by
  obtain ⟨sessions,last,_,first,⟨uses,rfl⟩,rfl⟩ := replay_shape false calls .finished replayed
  simp [first rfl,List.count_replicate]

end Session
