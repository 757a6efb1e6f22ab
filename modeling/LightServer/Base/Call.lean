import LightServer.Base.Run

/-! Calls inside the runs of a partial labelled step function: what the steps of a run
give out, the part of a run from a state inside a call to the step that ends it, and what
is asked of the steps that follow a certain one. -/
namespace Transition

variable {S A B : Type}

/-- What the steps of a run give out, in order. -/
def trace (step : S → A → Option S) (emit : S → A → List B) : S → List A → List B
  | _, [] => []
  | state, act::rest => emit state act ++ (step state act).elim [] (fun next => trace step emit next rest)

/-- A run inside a call, up to the step that ends it. -/
inductive Visit (step : S → A → Option S) (inside : S → Prop) : S → List A → S → Prop
  | leave {state act next} (here : inside state) (taken : step state act = some next) (gone : ¬ inside next) :
      Visit step inside state [act] next
  | stay {state act middle rest final} (here : inside state) (taken : step state act = some middle)
      (later : Visit step inside middle rest final) : Visit step inside state (act::rest) final

/-- Once a step has satisfied `P`, every later one satisfies `Q`. -/
def After (step : S → A → Option S) (P Q : S → A → Prop) : S → List A → Prop
  | _, [] => True
  | state, act::rest =>
    (P state act → ∀ next, step state act = some next → Along step Q next rest) ∧
      ∀ next, step state act = some next → After step P Q next rest

variable {step : S → A → Option S} {emit : S → A → List B} {inside : S → Prop} {P Q : S → A → Prop}

instance After.decidable [∀ state act, Decidable (P state act)] [∀ state act, Decidable (Q state act)] :
    ∀ state acts, Decidable (After step P Q state acts)
  | _, [] => inferInstanceAs (Decidable True)
  | state, act::rest =>
    have := fun next => After.decidable next rest
    inferInstanceAs (Decidable ((P state act → ∀ next ∈ step state act, Along step Q next rest) ∧
      ∀ next ∈ step state act, After step P Q next rest))

theorem Along.imp {state : S} {acts : List A} (along : Along step P state acts)
    (weaker : ∀ state act, P state act → Q state act) : Along step Q state acts := by
  induction acts generalizing state with
  | nil => trivial
  | cons act rest ih => exact ⟨weaker state act along.1,fun next taken => ih (along.2 next taken)⟩

theorem along_cons {state next : S} {act : A} (taken : step state act = some next) (rest : List A) :
    Along step P state (act::rest) ↔ P state act ∧ Along step P next rest := by
  simp [Along,taken]

@[simp] theorem trace_nil (state : S) : trace step emit state [] = [] := rfl

theorem trace_cons {state next : S} {act : A} (taken : step state act = some next) (rest : List A) :
    trace step emit state (act::rest) = emit state act ++ trace step emit next rest := by
  simp [trace,taken]

theorem trace_single (state : S) (act : A) : trace step emit state [act] = emit state act := by
  cases taken : step state act <;> simp [trace,taken]

theorem trace_snoc {state final : S} {acts : List A} (run : exec step state acts = some final) (act : A) :
    trace step emit state (acts ++ [act]) = trace step emit state acts ++ emit final act := by
  induction acts generalizing state with
  | nil =>
    obtain rfl : state = final := Option.some.inj run
    rw [List.nil_append,trace_single,trace_nil,List.nil_append]
  | cons first rest ih =>
    obtain ⟨next,taken,run⟩ := exec_cons_success run
    rw [List.cons_append,trace_cons taken,trace_cons taken,ih run,List.append_assoc]

/-- The invariant rule for a state and what has been given out on the way to it. -/
theorem trace_invariant {I : S → List B → Prop}
    (kept : ∀ state act next seen, I state seen → step state act = some next → I next (seen ++ emit state act))
    {state final : S} {acts : List A} {seen : List B} (start : I state seen) (run : exec step state acts = some final) :
    I final (seen ++ trace step emit state acts) := by
  induction acts generalizing state seen with
  | nil =>
    obtain rfl : state = final := Option.some.inj run
    rwa [trace_nil,List.append_nil]
  | cons act rest ih =>
    obtain ⟨next,taken,run⟩ := exec_cons_success run
    rw [trace_cons taken,← List.append_assoc]
    exact ih (kept _ _ _ _ start taken) run

/-- The invariant rule for a state and two things that have been given out on the way to it. -/
theorem traces_invariant {C : Type} {emit' : S → A → List C} {I : S → List B → List C → Prop}
    (kept : ∀ state act next seen seen', I state seen seen' → step state act = some next →
      I next (seen ++ emit state act) (seen' ++ emit' state act))
    {state final : S} {acts : List A} {seen : List B} {seen' : List C} (start : I state seen seen')
    (run : exec step state acts = some final) :
    I final (seen ++ trace step emit state acts) (seen' ++ trace step emit' state acts) := by
  induction acts generalizing state seen seen' with
  | nil =>
    obtain rfl : state = final := Option.some.inj run
    rwa [trace_nil,trace_nil,List.append_nil,List.append_nil]
  | cons act rest ih =>
    obtain ⟨next,taken,run⟩ := exec_cons_success run
    rw [trace_cons taken,trace_cons taken,← List.append_assoc,← List.append_assoc]
    exact ih (kept _ _ _ _ _ start taken) run

/-- A stable property that holds wherever a certain event occurs holds after every run with the event. -/
theorem exec_of_mem_trace {I D : S → Prop} {event : B}
    (kept : ∀ state act next, P state act → I state → step state act = some next → I next)
    (brings : ∀ state act next, P state act → I state → step state act = some next → event ∈ emit state act → D state)
    (stays : ∀ state act next, P state act → I state → step state act = some next → D state → D next)
    {state final : S} {acts : List A} (along : Along step P state acts) (start : I state)
    (run : exec step state acts = some final) (occurs : event ∈ trace step emit state acts) : D final := by
  induction acts generalizing state with
  | nil => simp at occurs
  | cons act rest ih =>
    obtain ⟨next,taken,run⟩ := exec_cons_success run
    have later := kept _ _ _ along.1 start taken
    rw [trace_cons taken,List.mem_append] at occurs
    rcases occurs with now | occurs
    · have reached := stays _ _ _ along.1 start taken (brings _ _ _ along.1 start taken now)
      exact (exec_invariant (I := fun state => I state ∧ D state)
        (fun _ _ _ guard both taken => ⟨kept _ _ _ guard both.1 taken,stays _ _ _ guard both.1 taken both.2⟩)
          (along.2 next taken) ⟨later,reached⟩ run).2
    · exact ih (along.2 next taken) later run occurs

namespace Visit

variable {state final : S} {acts : List A}

theorem here (visit : Visit step inside state acts final) : inside state := by
  cases visit with
  | leave here => exact here
  | stay here => exact here

theorem run (visit : Visit step inside state acts final) : exec step state acts = some final := by
  induction visit with
  | leave here taken gone => simp [taken]
  | stay here taken later ih => simpa [taken] using ih

/-- A run whose states are inside but the last. -/
theorem of_run (here : inside state) (run : exec step state acts = some final)
    (along : Along step (fun state _ => inside state) state acts) (gone : ¬ inside final) :
    Visit step inside state acts final := by
  induction acts generalizing state with
  | nil =>
    obtain rfl : state = final := Option.some.inj run
    exact absurd here gone
  | cons act rest ih =>
    obtain ⟨next,taken,run⟩ := exec_cons_success run
    cases rest with
    | nil =>
      obtain rfl : next = final := Option.some.inj run
      exact .leave here taken gone
    | cons => exact .stay here taken (ih (along.2 next taken).1 run (along.2 next taken))

end Visit

/-- The invariant rule with two stages: `I` up to the first step that satisfies `P`, and `J`
from then on. -/
theorem always_of_after {I J G : S → Prop} (early : ∀ state, I state → G state) (late : ∀ state, J state → G state)
    (kept : ∀ state act next, ¬ P state act → I state → step state act = some next → I next)
    (turns : ∀ state act next, P state act → I state → step state act = some next → J next)
    (stays : ∀ state act next, Q state act → J state → step state act = some next → J next)
    {state : S} {acts : List A} (after : After step P Q state acts) (start : I state) : Always step G state acts := by
  have second (state : S) (acts : List A) (along : Along step Q state acts) (turned : J state) : Always step G state acts := by
    induction acts generalizing state with
    | nil => exact late state turned
    | cons act rest ih =>
      exact ⟨late state turned,fun next taken => ih next (along.2 next taken) (stays _ _ _ along.1 turned taken)⟩
  induction acts generalizing state with
  | nil => exact early state start
  | cons act rest ih =>
    refine ⟨early state start,fun next taken => ?_⟩
    by_cases first : P state act
    · exact second next rest (after.1 first next taken) (turns _ _ _ first start taken)
    · exact ih (after.2 next taken) (kept _ _ _ first start taken)

end Transition
