import Mathlib.Data.List.Basic
import Mathlib.Data.List.Perm.Subperm
import Mathlib.Logic.Relation

/-! A first-in first-out channel: items are accepted in chunks, and a chunk may leave in
parts while it stays at the front. A receiver that refuses an item stops the queue there. -/
namespace Channel

variable {Item : Type}

structure State (Item : Type) where
  accepted : List Item
  delivered : List Item
  pending : List (List Item)

def fresh : State Item := ⟨[],[],[]⟩

inductive Step : State Item → State Item → Prop
  | push (accepted delivered pending chunk) :
      Step ⟨accepted,delivered,pending⟩ ⟨accepted++chunk,delivered,pending++[chunk]⟩
  | deliver (accepted delivered chunk pending count) :
      Step ⟨accepted,delivered,chunk::pending⟩ ⟨accepted,delivered++chunk.take count,chunk.drop count::pending⟩
  | pop (accepted delivered pending) : Step ⟨accepted,delivered,[]::pending⟩ ⟨accepted,delivered,pending⟩

/-- A channel that may not be there: it is opened empty and may be lost with what it holds. -/
inductive Life : Option (State Item) → Option (State Item) → Prop
  | opened : Life none (some fresh)
  | step {state next} (step : Step state next) : Life (some state) (some next)
  | lost (state) : Life (some state) none

/-- What has been delivered and what is pending make up what was accepted. -/
def Conserved (state : State Item) : Prop := state.delivered ++ state.pending.flatten = state.accepted

theorem Step.conserved {state next : State Item} (step : Step state next) (conserved : Conserved state) : Conserved next := by
  cases step with
  | push accepted delivered pending chunk =>
    have before : delivered ++ pending.flatten = accepted := conserved
    simp [Conserved,← before]
  | deliver accepted delivered chunk pending count =>
    have before : delivered ++ (chunk::pending).flatten = accepted := conserved
    calc (delivered ++ chunk.take count) ++ (chunk.drop count::pending).flatten
        = delivered ++ ((chunk.take count ++ chunk.drop count) ++ pending.flatten) := by
          simp only [List.flatten_cons,List.append_assoc]
      _ = delivered ++ (chunk::pending).flatten := by rw [List.take_append_drop,List.flatten_cons]
      _ = accepted := before
  | pop accepted delivered pending => exact conserved

theorem Life.conserved {state next : Option (State Item)} (life : Life state next) (conserved : ∀ c ∈ state, Conserved c) :
    ∀ c ∈ next, Conserved c := by
  intro c present
  cases life with
  | opened =>
    obtain rfl := Option.some.inj present
    rfl
  | step step =>
    obtain rfl := Option.some.inj present
    exact step.conserved (conserved _ rfl)
  | lost state => simp at present

/-- Nothing is lost, duplicated or reordered while the channel is there. -/
theorem run_conserved {state next : Option (State Item)} (run : Relation.ReflTransGen Life state next)
    (conserved : ∀ c ∈ state, Conserved c) : ∀ c ∈ next, Conserved c := by
  induction run with
  | refl => exact conserved
  | tail _ life ih => exact life.conserved ih

section refusal

variable {takes : Item → Bool}

/-- No item that is refused stands before one that is taken. -/
def RefusedLast (takes : Item → Bool) (queue : List Item) : Prop :=
  queue.Pairwise (fun first second => takes second = true → takes first = true)

instance (takes : Item → Bool) (queue : List Item) : Decidable (RefusedLast takes queue) :=
  inferInstanceAs (Decidable (List.Pairwise _ queue))

/-- The queue up to the first refusal holds all that can be taken exactly if what is refused stands last. -/
theorem filter_subperm_iff (queue later : List Item) :
    ((queue.filter takes).Subperm ((queue ++ later).takeWhile takes)) ↔ RefusedLast takes queue := by
  induction queue with
  | nil => exact ⟨fun _ => .nil,fun _ => List.nil_subperm⟩
  | cons item queue ih =>
    cases taken : takes item with
    | true =>
      rw [List.filter_cons_of_pos taken,List.cons_append,List.takeWhile_cons_of_pos taken,List.subperm_cons,ih]
      simp [RefusedLast,taken]
    | false =>
      rw [List.filter_cons_of_neg (by simp [taken]),List.cons_append,List.takeWhile_cons_of_neg (by simp [taken]),
        List.subperm_nil]
      simp only [RefusedLast,List.pairwise_cons,taken,Bool.false_eq_true,imp_false]
      refine ⟨fun none_taken => ?_,fun refused => List.filter_eq_nil_iff.mpr refused.1⟩
      have refused := List.filter_eq_nil_iff.mp none_taken
      exact ⟨refused,List.pairwise_of_forall_mem_list (fun _ _ _ second taken => absurd taken (refused _ second))⟩

/-- What has been taken in order, with nothing refused, goes at most to the first refusal. -/
theorem sent_prefix {queue later sent rest : List Item} (order : sent ++ rest = queue ++ later)
    (all : ∀ item ∈ sent, takes item = true) : sent <+: (queue ++ later).takeWhile takes := by
  rw [← order,List.takeWhile_append_of_pos all]
  exact List.prefix_append _ _

theorem takeWhile_prefix {queue later sent rest : List Item} (order : sent ++ rest = queue ++ later)
    (all : ∀ item ∈ sent, takes item = true) (stopped : ∀ item ∈ rest.head?, takes item = false) :
    queue.takeWhile takes <+: sent := by
  have whole : (queue ++ later).takeWhile takes = sent := by
    rw [← order,List.takeWhile_append_of_pos all]
    cases rest with
    | nil => simp
    | cons item rest => simp [stopped item rfl]
  rw [← whole,List.takeWhile_append]
  split
  · exact (List.takeWhile_prefix takes).trans (List.prefix_append _ _)
  · exact List.prefix_rfl

/-- A receiver that has taken the queue up to the first refusal has all it takes of it exactly if what is
refused stands last. -/
theorem served_iff {queue later sent : List Item} (least : queue.takeWhile takes <+: sent)
    (most : sent <+: (queue ++ later).takeWhile takes) : (queue.filter takes).Subperm sent ↔ RefusedLast takes queue := by
  refine ⟨fun served => (filter_subperm_iff queue later).mp (served.trans most.sublist.subperm),fun last => ?_⟩
  have served := (filter_subperm_iff queue []).mpr last
  rw [List.append_nil] at served
  exact served.trans least.sublist.subperm

end refusal

end Channel
