import Mathlib.Logic.Relation
import Mathlib.Data.List.Basic

/-! A work queue whose only consumer sleeps until it is signalled. The signal is
edge-triggered: arrivals before it is taken are reported once, and one signal is
answered by serving at most `budget` items. -/
namespace EdgeQueue

variable {Item : Type}

inductive Phase
  | idle
  | signalled
  | serving (left : Nat)

/-- `due` says that a further signal is owed to the consumer. -/
structure State (Item : Type) where
  queue : List Item
  due : Prop
  phase : Phase

/-- More items than the consumer is about to serve, and no further signal owed, is the
one situation `start` excludes. -/
def Ample (left : Nat) (queue : List Item) (due : Prop) : Prop := queue.length ≤ left ∨ due

inductive Step (budget : Nat) : State Item → State Item → Prop
  | arrive (queue due phase item) : Step budget ⟨queue,due,phase⟩ ⟨queue++[item],True,phase⟩
  | raise (queue due phase) : Step budget ⟨queue,due,phase⟩ ⟨queue,True,phase⟩
  | settle (due later phase) : Step budget ⟨[],due,phase⟩ ⟨[],later,phase⟩
  | discard (queue due phase) : Step budget ⟨queue,due,phase⟩ ⟨[],due,phase⟩
  | take (queue due later) : Step budget ⟨queue,due,.idle⟩ ⟨queue,later,.signalled⟩
  | start (queue due left) (within : left ≤ budget) (ample : Ample left queue due) :
      Step budget ⟨queue,due,.signalled⟩ ⟨queue,due,.serving left⟩
  | serve (item queue due left) :
      Step budget ⟨item::queue,due,.serving (left+1)⟩ ⟨queue,due,.serving left⟩
  | finish (queue due left) (finished : queue = [] ∨ left = 0) :
      Step budget ⟨queue,due,.serving left⟩ ⟨queue,due,.idle⟩

/-- What the consumer has not been told about is what it will still get to. -/
def Covered (state : State Item) : Prop :=
  match state.phase with
  | .idle => state.queue = [] ∨ state.due
  | .signalled => True
  | .serving left => Ample left state.queue state.due

theorem Step.covered {budget : Nat} {state next : State Item} (taken : Step budget state next)
    (covered : Covered state) : Covered next := by
  cases taken with
  | arrive queue due phase item => cases phase <;> simp [Covered,Ample]
  | raise queue due phase => cases phase <;> simp [Covered,Ample]
  | settle due later phase => cases phase <;> simp [Covered,Ample]
  | discard queue due phase => cases phase <;> simp [Covered,Ample]
  | take queue due later => trivial
  | start queue due left within ample => exact ample
  | serve item queue due left =>
    rcases covered with short | owed
    · exact Or.inl (by simpa using short)
    · exact Or.inr owed
  | finish queue due left finished =>
    rcases finished with empty | spent
    · exact Or.inl empty
    · rcases covered with short | owed
      · exact Or.inl (List.length_eq_zero_iff.mp (by simpa [spent] using short))
      · exact Or.inr owed

theorem run_covered {budget : Nat} {state next : State Item}
    (run : Relation.ReflTransGen (Step budget) state next) (covered : Covered state) : Covered next := by
  induction run with
  | refl => exact covered
  | tail _ last ih => exact last.covered ih

/-- Arrivals come with a signal; without any, the signal owed can only be a new one. -/
theorem arrivals (budget : Nat) (items queue : List Item) {due later : Prop} (phase : Phase) (kept : due → later)
    (raised : items ≠ [] → later) :
    Relation.ReflTransGen (Step budget) ⟨queue,due,phase⟩ ⟨queue++items,later,phase⟩ := by
  induction items generalizing queue due with
  | nil =>
    by_cases owed : later
    · rw [eq_true owed,List.append_nil]
      exact .single (.raise queue due phase)
    · rw [eq_false owed,eq_false (fun was => owed (kept was)),List.append_nil]
  | cons item items ih =>
    have owed : later := raised (by simp)
    have rest := ih (queue++[item]) (fun (_ : True) => owed) (fun _ => owed)
    rw [List.append_assoc,List.singleton_append] at rest
    exact .head (.arrive queue due phase item) rest

theorem weaken (budget : Nat) (queue : List Item) {due later : Prop} (phase : Phase) (kept : due → later) :
    Relation.ReflTransGen (Step budget) ⟨queue,due,phase⟩ ⟨queue,later,phase⟩ := by
  simpa using arrivals budget [] queue phase kept (by simp)

/-- No item is stranded: an idle consumer with items left is owed a signal. -/
theorem idle_covered {budget : Nat} {state next : State Item}
    (run : Relation.ReflTransGen (Step budget) state next) (covered : Covered state)
    (idle : next.phase = .idle) (quiet : ¬ next.due) : next.queue = [] := by
  have kept := run_covered run covered
  rw [Covered,idle] at kept
  exact kept.resolve_right quiet

end EdgeQueue
