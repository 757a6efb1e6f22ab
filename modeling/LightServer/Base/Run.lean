import Mathlib.Logic.Relation
import Mathlib.Data.List.Induction
import Mathlib.Data.Option.Basic

/-! Finite runs of a partial labelled step function, properties of every step of
a run, and the transfer of a run to an abstract machine that simulates it. -/
namespace Transition

variable {S A : Type}

/-- Performs the actions in order; `none` as soon as one of them is not enabled. -/
def exec (step : S → A → Option S) : S → List A → Option S
  | state, [] => some state
  | state, act::rest => (step state act).bind (fun next => exec step next rest)

/-- Every step taken along the run satisfies `P` in the state it is taken from. -/
def Along (step : S → A → Option S) (P : S → A → Prop) : S → List A → Prop
  | _, [] => True
  | state, act::rest => P state act ∧ ∀ next, step state act = some next → Along step P next rest

/-- Every state the run passes through satisfies `G`. -/
def Always (step : S → A → Option S) (G : S → Prop) : S → List A → Prop
  | state, [] => G state
  | state, act::rest => G state ∧ ∀ next, step state act = some next → Always step G next rest

variable {step : S → A → Option S}

instance Along.decidable {P : S → A → Prop} [∀ state act, Decidable (P state act)] :
    ∀ state acts, Decidable (Along step P state acts)
  | _, [] => inferInstanceAs (Decidable True)
  | state, act::rest =>
    have := fun next => Along.decidable (P := P) next rest
    inferInstanceAs (Decidable (P state act ∧ ∀ next ∈ step state act, Along step P next rest))

@[simp] theorem exec_nil (state : S) : exec step state [] = some state := rfl

@[simp] theorem exec_cons (state : S) (act : A) (rest : List A) :
    exec step state (act::rest) = (step state act).bind (fun next => exec step next rest) := rfl

theorem exec_cons_success {state final : S} {act : A} {rest : List A}
    (run : exec step state (act::rest) = some final) :
    ∃ next, step state act = some next ∧ exec step next rest = some final := by
  simpa [Option.bind_eq_some_iff] using run

theorem exec_append (state : S) (first second : List A) :
    exec step state (first++second) = (exec step state first).bind (fun middle => exec step middle second) := by
  induction first generalizing state with
  | nil => rfl
  | cons act rest ih => cases taken : step state act <;> simp [taken,ih]

/-- A run on fixed inputs is found by evaluating it. -/
theorem exec_reaches (P : S → Prop) [DecidablePred P] {state : S} {acts : List A}
    (found : (exec step state acts).any (fun final => decide (P final)) = true) :
    ∃ final, exec step state acts = some final ∧ P final := by
  obtain ⟨final,run,holds⟩ := (Option.any_eq_true _ _).mp found
  exact ⟨final,run,of_decide_eq_true holds⟩

theorem Along.and {P Q : S → A → Prop} {state : S} {acts : List A}
    (left : Along step P state acts) (right : Along step Q state acts) :
    Along step (fun state act => P state act ∧ Q state act) state acts := by
  induction acts generalizing state with
  | nil => trivial
  | cons act rest ih =>
    exact ⟨⟨left.1,right.1⟩,fun next taken => ih (left.2 next taken) (right.2 next taken)⟩

theorem Along.left {P : S → A → Prop} {state : S} {first second : List A} (along : Along step P state (first++second)) :
    Along step P state first := by
  induction first generalizing state with
  | nil => trivial
  | cons act rest ih => exact ⟨along.1,fun next taken => ih (along.2 next taken)⟩

theorem Along.right {P : S → A → Prop} {state middle : S} {first second : List A} (along : Along step P state (first++second))
    (run : exec step state first = some middle) : Along step P middle second := by
  induction first generalizing state with
  | nil =>
    obtain rfl : state = middle := Option.some.inj run
    exact along
  | cons act rest ih =>
    obtain ⟨next,taken,run⟩ := exec_cons_success run
    exact ih (along.2 next taken) run

/-- A guard that depends on the action alone is a property of the list of actions. -/
theorem along_of_forall {P : A → Prop} {state : S} {acts : List A} (all : ∀ act ∈ acts, P act) :
    Along step (fun _ act => P act) state acts := by
  induction acts generalizing state with
  | nil => trivial
  | cons act rest ih =>
    exact ⟨all act (by simp),fun next _ => ih (fun a member => all a (by simp [member]))⟩

/-- The invariant rule: what every guarded step keeps, a guarded run keeps. -/
theorem exec_invariant {P : S → A → Prop} {I : S → Prop}
    (kept : ∀ state act next, P state act → I state → step state act = some next → I next)
    {state final : S} {acts : List A} (along : Along step P state acts) (start : I state)
    (run : exec step state acts = some final) : I final := by
  induction acts generalizing state with
  | nil =>
    have same : state = final := Option.some.inj run
    exact same ▸ start
  | cons act rest ih =>
    obtain ⟨next,taken,run⟩ := exec_cons_success run
    exact ih (along.2 next taken) (kept _ _ _ along.1 start taken) run

/-- The invariant rule for runs without a guard. -/
theorem exec_invariant_free {I : S → Prop}
    (kept : ∀ state act next, I state → step state act = some next → I next)
    {state final : S} {acts : List A} (start : I state)
    (run : exec step state acts = some final) : I final :=
  exec_invariant (P := fun _ _ => True) (fun _ _ _ _ inv taken => kept _ _ _ inv taken)
    (along_of_forall (P := fun _ => True) (fun _ _ => trivial)) start run

/-- The invariant rule for what is about the run so far, or is kept only in states that a run reaches. -/
theorem exec_induction {I : List A → S → Prop} {first final : S} {acts : List A} (start : I [] first)
    (kept : ∀ acts state act next, exec step first acts = some state → I acts state → step state act = some next → I (acts ++ [act]) next)
    (run : exec step first acts = some final) : I acts final := by
  induction acts using List.reverseRecOn generalizing final with
  | nil =>
    obtain rfl : first = final := Option.some.inj run
    exact start
  | append_singleton acts act ih =>
    rw [exec_append] at run
    obtain ⟨state,earlier,last⟩ := Option.bind_eq_some_iff.mp run
    obtain ⟨next,taken,done⟩ := exec_cons_success last
    obtain rfl : next = final := Option.some.inj done
    exact kept acts state act next earlier (ih earlier) taken

/-- A property that follows from a kept invariant holds of every step of the run. -/
theorem along_of_invariant {P Q : S → A → Prop} {I : S → Prop}
    (kept : ∀ state act next, P state act → I state → step state act = some next → I next)
    (use : ∀ state act next, P state act → I state → step state act = some next → Q state act)
    {state final : S} {acts : List A} (along : Along step P state acts) (start : I state)
    (run : exec step state acts = some final) : Along step Q state acts := by
  induction acts generalizing state with
  | nil => trivial
  | cons act rest ih =>
    obtain ⟨next,taken,run⟩ := exec_cons_success run
    refine ⟨use _ _ _ along.1 start taken,fun other same => ?_⟩
    have equal : next = other := Option.some.inj (taken.symm.trans same)
    subst equal
    exact ih (along.2 next taken) (kept _ _ _ along.1 start taken) run

/-- A guard whose first failure is never made good holds along every run that ends well. -/
theorem along_of_good {P : S → A → Prop} {I B : S → Prop}
    (kept : ∀ state act next, P state act → I state → step state act = some next → I next)
    (breaks : ∀ state act next, ¬ P state act → I state → step state act = some next → B next)
    (stays : ∀ state act next, B state → step state act = some next → B next)
    {state final : S} {acts : List A} (start : I state) (run : exec step state acts = some final) (good : ¬ B final) :
    Along step P state acts := by
  induction acts generalizing state with
  | nil => trivial
  | cons act rest ih =>
    obtain ⟨next,taken,run⟩ := exec_cons_success run
    have guarded : P state act := by
      by_contra failed
      exact good (exec_invariant_free stays (breaks _ _ _ failed start taken) run)
    refine ⟨guarded,fun other same => ?_⟩
    obtain rfl : next = other := Option.some.inj (taken.symm.trans same)
    exact ih (kept _ _ _ guarded start taken) run

/-- Where a failure of the guard shows in the next state, the guard holds along the run
exactly if every state of the run is good. -/
theorem always_iff_along {P : S → A → Prop} {I G : S → Prop} (use : ∀ state, I state → G state)
    (kept : ∀ state act next, P state act → I state → step state act = some next → I next)
    (breaks : ∀ state act next, ¬ P state act → I state → step state act = some next → ¬ G next)
    {state final : S} {acts : List A} (start : I state) (run : exec step state acts = some final) :
    Always step G state acts ↔ Along step P state acts := by
  induction acts generalizing state with
  | nil => exact ⟨fun _ => trivial,fun _ => use state start⟩
  | cons act rest ih =>
    obtain ⟨next,taken,run⟩ := exec_cons_success run
    have only {other : S} (same : step state act = some other) : next = other := Option.some.inj (taken.symm.trans same)
    constructor
    · rintro ⟨_,later⟩
      have good : G next := by
        have passed := later next taken
        cases rest with
        | nil => exact passed
        | cons => exact passed.1
      have guarded : P state act := by
        by_contra failed
        exact breaks _ _ _ failed start taken good
      refine ⟨guarded,fun other same => ?_⟩
      obtain rfl := only same
      exact (ih (kept _ _ _ guarded start taken) run).mp (later next taken)
    · rintro ⟨guarded,later⟩
      refine ⟨use state start,fun other same => ?_⟩
      obtain rfl := only same
      exact (ih (kept _ _ _ guarded start taken) run).mpr (later next taken)

/-- The simulation rule: if every guarded step is matched by finitely many steps
of the abstract machine, so is every guarded run. -/
theorem exec_simulated {P : S → A → Prop} {T : Type} {abstract : T → T → Prop} (meaning : S → T)
    {I : S → Prop}
    (kept : ∀ state act next, P state act → I state → step state act = some next → I next)
    (matched : ∀ state act next, P state act → I state → step state act = some next →
      Relation.ReflTransGen abstract (meaning state) (meaning next))
    {state final : S} {acts : List A} (along : Along step P state acts) (start : I state)
    (run : exec step state acts = some final) :
    Relation.ReflTransGen abstract (meaning state) (meaning final) := by
  induction acts generalizing state with
  | nil =>
    have same : state = final := Option.some.inj run
    exact same ▸ .refl
  | cons act rest ih =>
    obtain ⟨next,taken,run⟩ := exec_cons_success run
    exact (matched _ _ _ along.1 start taken).trans
      (ih (along.2 next taken) (kept _ _ _ along.1 start taken) run)

end Transition
