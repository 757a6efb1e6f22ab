import Mathlib.Data.List.Basic

/-! Machines that read a stream one item at a time and put out results, and readers that
take a stream in blocks and stop after each result. How the stream is cut does not matter. -/
namespace Incremental

variable {S B O : Type} (step : S → B → S × Option O)

def run : S → List B → S × List O
  | state, [] => (state,[])
  | state, item::rest =>
    let first := step state item
    let later := run first.1 rest
    (later.1,first.2.toList ++ later.2)

/-- A call of a reader takes all of its input, or stops after the item that completes a result. -/
inductive Call (state : S) : List B → Option O → Nat → S → Prop
  | all (input next) (quiet : run step state input = (next,[])) : Call state input none input.length next
  | stop (before item after middle next out) (quiet : run step state before = (middle,[]))
      (last : step middle item = (next,some out)) : Call state (before ++ item::after) (some out) (before.length+1) next

/-- Calls of a reader on one block, each on what the last one left. -/
inductive Calls : S → List B → List O → S → Prop
  | last (state input count next) (call : Call step state input none count next) : Calls state input [] next
  | again (state input out count middle outs next) (call : Call step state input (some out) count middle)
      (rest : Calls middle (input.drop count) outs next) : Calls state input (out::outs) next

/-- A reader that is given a stream in blocks. -/
inductive Blocks : S → List (List B) → List O → S → Prop
  | nil (state) : Blocks state [] [] state
  | cons (state block middle outs blocks outs' next) (calls : Calls step state block outs middle)
      (rest : Blocks middle blocks outs' next) : Blocks state (block::blocks) (outs++outs') next

variable {step}

theorem run_append (state : S) (first second : List B) :
    run step state (first++second) =
      ((run step (run step state first).1 second).1,
        (run step state first).2 ++ (run step (run step state first).1 second).2) := by
  induction first generalizing state with
  | nil => rfl
  | cons item first ih => simp only [List.cons_append,run,ih,List.append_assoc]

theorem run_snoc {state middle next : S} {before : List B} {item : B} {outs : List O} {out : Option O}
    (earlier : run step state before = (middle,outs)) (last : step middle item = (next,out)) :
    run step state (before++[item]) = (next,outs++out.toList) := by
  rw [run_append,earlier]
  simp [run,last]

theorem Call.run {state next : S} {input : List B} {out : Option O} {count : Nat} (call : Call step state input out count next) :
    run step state (input.take count) = (next,out.toList) ∧ count ≤ input.length := by
  cases call with
  | all _ _ quiet => exact ⟨by rwa [List.take_length],Nat.le_refl _⟩
  | stop before item after middle _ out quiet last =>
    have taken : (before ++ item::after).take (before.length+1) = before ++ [item] := by
      rw [List.append_cons,List.take_left' (by simp)]
    exact ⟨by rw [taken,run_snoc quiet last,List.nil_append],by simp⟩

/-- A call takes up no more of its input than it needs for its result. -/
theorem Call.before {state next : S} {input : List B} {out : Option O} {count : Nat} (call : Call step state input out count next)
    {fewer : Nat} (early : fewer < count) : (Incremental.run step state (input.take fewer)).2 = [] := by
  have part {whole : List B} {last : S} (quiet : Incremental.run step state whole = (last,[])) (size : Nat) :
      (Incremental.run step state (whole.take size)).2 = [] := by
    have split : Incremental.run step state _ = _ := run_append state (whole.take size) (whole.drop size)
    rw [List.take_append_drop,quiet] at split
    exact (List.append_eq_nil_iff.mp (congrArg Prod.snd split).symm).1
  cases call with
  | all _ _ quiet => exact part quiet fewer
  | stop before item after middle _ out quiet last =>
    rw [List.take_append_of_le_length (by omega)]
    exact part quiet fewer

/-- A block without a result, and a call on what comes after it. -/
theorem Call.after {state middle next : S} {first second : List B} {out : Option O} {count : Nat}
    (quiet : Incremental.run step state first = (middle,[])) (call : Call step middle second out count next) :
    Call step state (first++second) out (first.length+count) next := by
  cases call with
  | all _ _ later =>
    rw [← List.length_append]
    exact .all _ _ (by rw [run_append,quiet,later]; rfl)
  | stop before item rest mid _ out later last =>
    rw [← List.append_assoc,← Nat.add_assoc,← List.length_append]
    exact .stop _ item rest mid _ out (by rw [run_append,quiet,later]; rfl) last

theorem Call.extend {state next : S} {input : List B} {out : O} {count : Nat} (call : Call step state input (some out) count next)
    (more : List B) : Call step state (input++more) (some out) count next := by
  cases call with
  | stop before item rest middle _ _ quiet last =>
    rw [List.append_assoc]
    exact .stop before item (rest++more) middle _ out quiet last

theorem Call.takes_all {state next : S} {input : List B} {count : Nat} (call : Call step state input none count next) :
    count = input.length := by
  cases call with
  | all _ _ _ => rfl

theorem Call.some_left {state next : S} {input : List B} {out : O} {count : Nat}
    (call : Call step state input (some out) count next) : input ≠ [] := by
  cases call with
  | stop before item after middle _ _ _ _ => simp

/-- A call depends on what the state makes of the first item. -/
theorem Call.congr {state other next : S} {input : List B} {out : Option O} {count : Nat}
    (same : ∀ item, step other item = step state item) (some_left : input ≠ []) (call : Call step state input out count next) :
    Call step other input out count next := by
  cases call with
  | all _ _ quiet =>
    obtain ⟨item,rest,rfl⟩ := List.exists_cons_of_ne_nil some_left
    exact .all _ _ (by simpa only [Incremental.run,same item] using quiet)
  | stop before item rest middle _ out quiet last =>
    cases before with
    | nil =>
      obtain rfl : state = middle := congrArg Prod.fst quiet
      exact .stop [] item rest other _ out rfl ((same item).trans last)
    | cons first before => exact .stop _ item rest middle _ out (by simpa only [Incremental.run,same first] using quiet) last

theorem Calls.run {state next : S} {input : List B} {outs : List O} (calls : Calls step state input outs next) :
    run step state input = (next,outs) := by
  induction calls with
  | last state input count next call =>
    cases call with
    | all _ _ quiet => exact quiet
  | again state input out count middle outs next call rest ih =>
    rw [← List.take_append_drop count input,run_append,call.run.1]
    simp [ih]

/-- What a reader makes of a stream depends on the stream only. -/
theorem Blocks.run {state next : S} {blocks : List (List B)} {outs : List O} (read : Blocks step state blocks outs next) :
    run step state blocks.flatten = (next,outs) := by
  induction read with
  | nil state => rfl
  | cons state block middle outs blocks outs' next calls rest ih =>
    rw [List.flatten_cons,run_append,calls.run]
    simp [ih]

end Incremental
