import Mathlib.Data.List.Basic
import Mathlib.Data.List.Induction
import Mathlib.Algebra.BigOperators.Group.List.Basic
import Mathlib.Algebra.Order.Ring.Nat

/-! Limits on what passes in a window of time. A window begins with the item that comes `span` or more
after the beginning of the last one, and all that comes in it counts, whether it passes or not. -/
namespace RateLimit

/-- The beginning of the window, and what has come in it. -/
structure State where
  start : Nat
  total : Nat

/-- An item with the beginning of the window it came in. -/
structure Entry where
  weight : Nat
  time : Nat
  start : Nat
  passed : Bool

def State.next (span weight time : Nat) (s : State) : State :=
  if s.start+span ≤ time then ⟨time,weight⟩ else ⟨s.start,s.total+weight⟩

/-- The log of a limiter that lets an item pass where `passes` holds of what has come in the window with it. -/
inductive Counts (span : Nat) (passes : Nat → Bool) : State → List Entry → Prop
  | nil (s) : Counts span passes s []
  | cons (s weight time rest) (later : Counts span passes (s.next span weight time) rest) :
      Counts span passes s (⟨weight,time,(s.next span weight time).start,passes (s.next span weight time).total⟩::rest)

def weightOf (which : Entry → Bool) (entries : List Entry) : Nat := ((entries.filter which).map Entry.weight).sum

/-- What has come in the window that begins at `start`. -/
def received (start : Nat) : List Entry → Nat := weightOf (fun entry => entry.start = start)

/-- What has passed in the window that begins at `start`. -/
def passedIn (start : Nat) : List Entry → Nat := weightOf (fun entry => entry.passed && entry.start = start)

/-- What has passed from the time `first` to the time `last`. -/
def passedWithin (first last : Nat) : List Entry → Nat :=
  weightOf (fun entry => entry.passed && decide (first ≤ entry.time ∧ entry.time ≤ last))

variable {span limit : Nat} {passes : Nat → Bool} {s : State} {entries : List Entry}

theorem weightOf_cons (which : Entry → Bool) (entry : Entry) (rest : List Entry) :
    weightOf which (entry::rest) = (if which entry then entry.weight else 0)+weightOf which rest := by
  unfold weightOf
  cases selected : which entry with
  | true => rw [List.filter_cons_of_pos selected,List.map_cons,List.sum_cons,if_pos rfl]
  | false => rw [List.filter_cons_of_neg (by simp [selected]),if_neg (by simp),Nat.zero_add]

theorem weightOf_append (which : Entry → Bool) (first second : List Entry) :
    weightOf which (first ++ second) = weightOf which first+weightOf which second := by
  simp [weightOf,List.filter_append,List.map_append,List.sum_append]

theorem weightOf_replicate (which : Entry → Bool) (entry : Entry) (selected : which entry = true) (count : Nat) :
    weightOf which (List.replicate count entry) = count*entry.weight := by
  rw [weightOf,List.filter_replicate_of_pos selected,List.map_replicate,List.sum_replicate_nat]

theorem received_cons (start : Nat) (entry : Entry) (rest : List Entry) :
    received start (entry::rest) = (if entry.start = start then entry.weight else 0)+received start rest := by
  rw [received,weightOf_cons]
  simp only [decide_eq_true_eq]

theorem received_nil (start : Nat) : received start [] = 0 := rfl

theorem weightOf_none {which : Entry → Bool} (none : ∀ entry ∈ entries, which entry = false) : weightOf which entries = 0 := by
  rw [weightOf,List.filter_eq_nil_iff.mpr (fun entry member => by simp [none entry member]),List.map_nil,List.sum_nil]

theorem weightOf_mono {which others : Entry → Bool} (implies : ∀ entry ∈ entries, which entry = true → others entry = true) :
    weightOf which entries ≤ weightOf others entries := by
  induction entries with
  | nil => exact Nat.le_refl _
  | cons entry rest ih =>
    have later := ih (fun entry member => implies entry (List.mem_cons_of_mem _ member))
    have first := implies entry List.mem_cons_self
    rw [weightOf_cons,weightOf_cons]
    cases selected : which entry with
    | true => simp only [first selected,if_true]; omega
    | false => simp only [Bool.false_eq_true,if_false]; omega

/-- A bound on all that has come with an item holds of the items it is known for. -/
theorem weightOf_le {which others : Entry → Bool} (implies : ∀ entry ∈ entries, which entry = true → others entry = true)
    (bounded : ∀ before entry after, entries = before ++ entry::after → which entry = true → weightOf others (before ++ [entry]) ≤ limit) :
    weightOf which entries ≤ limit := by
  induction entries using List.reverseRecOn with
  | nil => exact Nat.zero_le _
  | append_singleton before entry ih =>
    cases selected : which entry with
    | true => exact (weightOf_mono implies).trans (bounded before entry [] rfl selected)
    | false =>
      have earlier := ih (fun other member => implies other (List.mem_append_left _ member))
        (fun start other after parts => bounded start other (after ++ [entry]) (by rw [parts,List.append_assoc]; rfl))
      rw [weightOf_append,weightOf_cons,selected]
      exact earlier

/-- A sum cut in two by a test. -/
theorem weightOf_split (which test : Entry → Bool) (entries : List Entry) :
    weightOf which entries = weightOf (fun entry => which entry && test entry) entries +
      weightOf (fun entry => which entry && !test entry) entries := by
  induction entries with
  | nil => rfl
  | cons entry rest ih =>
    simp only [weightOf_cons,ih]
    cases which entry <;> cases test entry <;> simp <;> omega

theorem State.next_cases (span weight time : Nat) (s : State) :
    (s.start+span ≤ time ∧ s.next span weight time = ⟨time,weight⟩) ∨
    (time < s.start+span ∧ s.next span weight time = ⟨s.start,s.total+weight⟩) := by
  unfold next
  split
  · exact .inl ⟨‹_›,rfl⟩
  · exact .inr ⟨by omega,rfl⟩

/-- An item comes in the `span` after the beginning of its window. -/
theorem State.next_around {span time : Nat} {s : State} (positive : 0 < span) (weight : Nat) (begun : s.start ≤ time) :
    (s.next span weight time).start ≤ time ∧ time < (s.next span weight time).start+span := by
  obtain ⟨_,next⟩ | ⟨same,next⟩ := State.next_cases span weight time s
  · rw [next]
    exact ⟨Nat.le_refl _,Nat.lt_add_of_pos_right positive⟩
  · rw [next]
    exact ⟨begun,same⟩

namespace Counts

/-- A window begins where the last one did, or `span` or more after it. -/
theorem starts (counts : Counts span passes s entries) : ∀ entry ∈ entries, entry.start = s.start ∨ s.start+span ≤ entry.start := by
  induction counts with
  | nil s => simp
  | cons s weight time rest later ih =>
    have first : (s.next span weight time).start = s.start ∨ s.start+span ≤ (s.next span weight time).start := by
      obtain ⟨begins,next⟩ | ⟨_,next⟩ := State.next_cases span weight time s
      · exact .inr (next ▸ begins)
      · exact .inl (by rw [next])
    intro entry member
    rcases List.mem_cons.mp member with rfl | member
    · exact first
    · have after := ih entry member
      omega

theorem apart (counts : Counts span passes s entries) : ∀ entry ∈ entries, ∀ another ∈ entries,
    entry.start = another.start ∨ entry.start+span ≤ another.start ∨ another.start+span ≤ entry.start := by
  induction counts with
  | nil s => simp
  | cons s weight time rest later ih =>
    have after := later.starts
    intro entry member another member'
    rcases List.mem_cons.mp member with rfl | member <;> rcases List.mem_cons.mp member' with rfl | member'
    · exact .inl rfl
    · have first := after another member'
      dsimp only
      omega
    · have first := after entry member
      dsimp only
      omega
    · exact ih entry member another member'

theorem times (counts : Counts span passes s entries) (positive : 0 < span) (begun : ∀ entry ∈ entries, s.start ≤ entry.time)
    (sorted : entries.Pairwise (fun entry later => entry.time ≤ later.time)) :
    ∀ entry ∈ entries, entry.start ≤ entry.time ∧ entry.time < entry.start+span := by
  induction counts with
  | nil s => simp
  | cons s weight time rest later ih =>
    obtain ⟨first,rest_sorted⟩ := List.pairwise_cons.mp sorted
    have next := s.next_around positive weight (begun _ List.mem_cons_self)
    intro entry member
    rcases List.mem_cons.mp member with rfl | member
    · exact next
    · exact ih (fun entry member => Nat.le_trans next.1 (first entry member)) rest_sorted entry member

/-- What has come in the window up to an item and with it decides whether the item passes. -/
theorem decided (counts : Counts span passes s entries) (positive : 0 < span) {before after : List Entry} {entry : Entry}
    (parts : entries = before ++ entry::after) :
    entry.passed = passes ((if entry.start = s.start then s.total else 0)+received entry.start (before ++ [entry])) := by
  induction counts generalizing before with
  | nil s => simp at parts
  | cons s weight time rest later ih =>
    cases before with
    | nil =>
      obtain ⟨rfl,rfl⟩ := List.cons.inj parts
      rw [List.nil_append,received_cons,if_pos rfl,received_nil]
      obtain ⟨begins,next⟩ | ⟨_,next⟩ := State.next_cases span weight time s
      · rw [next,if_neg (show ¬ time = s.start by omega),Nat.zero_add,Nat.add_zero]
      · rw [next,if_pos rfl,Nat.add_zero]
    | cons first before =>
      obtain ⟨rfl,tail⟩ := List.cons.inj parts
      have member : entry ∈ rest := tail ▸ List.mem_append_right before List.mem_cons_self
      have after_next := later.starts entry member
      rw [ih tail,List.cons_append,received_cons]
      congr 1
      obtain ⟨begins,next⟩ | ⟨_,next⟩ := State.next_cases span weight time s
      · rw [next] at after_next ⊢
        dsimp only at after_next ⊢
        split_ifs <;> omega
      · rw [next] at after_next ⊢
        dsimp only at after_next ⊢
        split_ifs <;> omega

/-- What passes in a part of the log that lies in one window is within the limit, where the test is within it for all
that can have come in that window. -/
theorem one_window_le (counts : Counts span passes s entries) (positive : 0 < span) (which : Entry → Bool)
    (passed : ∀ entry ∈ entries, which entry = true → entry.passed = true)
    (same : ∀ entry ∈ entries, ∀ another ∈ entries, which entry = true → which another = true → entry.start = another.start)
    (within : ∀ entry ∈ entries, which entry = true → ∀ total ≤ (if entry.start = s.start then s.total else 0)+received entry.start entries,
      passes total = true → total ≤ limit) : weightOf which entries ≤ limit := by
  by_cases some_entry : ∃ entry ∈ entries, which entry = true
  · obtain ⟨first,member,selected⟩ := some_entry
    refine @weightOf_le limit entries which (fun entry => entry.start = first.start) (fun entry member' selected' => ?_) ?_
    · simp [same entry member' first member selected' selected]
    · intro before entry after parts selected'
      have member' : entry ∈ entries := parts ▸ List.mem_append_right before List.mem_cons_self
      have decided := counts.decided positive parts
      rw [passed entry member' selected',same entry member' first member selected' selected] at decided
      have whole : received first.start entries = received first.start (before ++ [entry])+received first.start after := by
        rw [parts,List.append_cons before entry after]
        exact weightOf_append _ _ _
      have bounded := within first member selected _ (Nat.add_le_add_left (by omega) _) decided.symm
      exact (Nat.le_add_left _ _).trans bounded
  · rw [weightOf_none (fun entry member => Bool.eq_false_iff.mpr (fun selected => some_entry ⟨entry,member,selected⟩))]
    exact Nat.zero_le _

/-- A time of the length of a window meets two windows at most. -/
theorem passedWithin_le (counts : Counts span passes s entries) (positive : 0 < span)
    (begun : ∀ entry ∈ entries, s.start ≤ entry.time) (sorted : entries.Pairwise (fun entry later => entry.time ≤ later.time))
    (first : Nat) (within : ∀ entry ∈ entries, first ≤ entry.time → entry.time ≤ first+span →
      ∀ total ≤ (if entry.start = s.start then s.total else 0)+received entry.start entries, passes total = true → total ≤ limit) :
    passedWithin first (first+span) entries ≤ 2*limit := by
  have times := counts.times positive begun sorted
  have apart := counts.apart
  -- the windows that began by `first`, and those that began later
  rw [passedWithin,weightOf_split _ (fun entry => entry.start ≤ first)]
  have old := counts.one_window_le positive
    (fun entry => entry.passed && decide (first ≤ entry.time ∧ entry.time ≤ first+span) && decide (entry.start ≤ first))
    (fun entry member selected => by simp only [Bool.and_eq_true] at selected; exact selected.1.1)
    (fun entry member another member' selected selected' => by
      have inside := times entry member
      have inside' := times another member'
      have order := apart entry member another member'
      simp only [Bool.and_eq_true,decide_eq_true_eq] at selected selected'
      omega)
    (fun entry member selected => by
      simp only [Bool.and_eq_true,decide_eq_true_eq] at selected
      exact within entry member selected.1.2.1 selected.1.2.2)
  have new := counts.one_window_le positive
    (fun entry => entry.passed && decide (first ≤ entry.time ∧ entry.time ≤ first+span) && !decide (entry.start ≤ first))
    (fun entry member selected => by simp only [Bool.and_eq_true] at selected; exact selected.1.1)
    (fun entry member another member' selected selected' => by
      have inside := times entry member
      have inside' := times another member'
      have order := apart entry member another member'
      simp only [Bool.and_eq_true,decide_eq_true_eq,Bool.not_eq_true',decide_eq_false_iff_not] at selected selected'
      omega)
    (fun entry member selected => by
      simp only [Bool.and_eq_true,decide_eq_true_eq] at selected
      exact within entry member selected.1.2.1 selected.1.2.2)
  omega

end Counts

end RateLimit
