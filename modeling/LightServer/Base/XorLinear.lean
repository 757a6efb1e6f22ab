import Mathlib.Data.Nat.Notation

/-! Maps between words that respect exclusive or. Such a map is known from the words with one bit,
and a list of columns is enough to undo it. -/
namespace XorLinear

variable {v w u : Nat}

def Linear (f : BitVec v → BitVec w) : Prop := ∀ x y, f (x ^^^ y) = f x ^^^ f y

variable {f g : BitVec v → BitVec w}

theorem Linear.zero (linear : Linear f) : f 0 = 0 := by
  have twice := linear 0 0
  simpa using twice

theorem Linear.comp {h : BitVec w → BitVec u} (outer : Linear h) (inner : Linear f) : Linear (fun x => h (f x)) := by
  intro x y
  change h (f (x ^^^ y)) = _
  rw [inner x y,outer]

theorem linear_id : Linear (fun x : BitVec v => x) := fun _ _ => rfl

/-- The exclusive or of the columns at the bits of the word. -/
def combine : List (BitVec w) → BitVec v → BitVec w
  | [], _ => 0
  | column::rest, x => (if x.getLsbD 0 then column else 0) ^^^ combine rest (x >>> 1)

theorem linear_combine (columns : List (BitVec w)) : Linear (combine columns : BitVec v → BitVec w) := by
  induction columns with
  | nil => intro x y; simp [combine]
  | cons column rest ih =>
    intro x y
    have later : combine rest ((x ^^^ y) >>> 1) = combine rest (x >>> 1) ^^^ combine rest (y >>> 1) := by
      rw [BitVec.ushiftRight_xor_distrib]
      exact ih _ _
    have split (a b c d : BitVec w) : (a ^^^ b) ^^^ (c ^^^ d) = (a ^^^ c) ^^^ (b ^^^ d) := by ac_rfl
    simp only [combine,later,BitVec.getLsbD_xor]
    rw [← split]
    cases x.getLsbD 0 <;> cases y.getLsbD 0 <;> simp

/-- Two linear maps that agree on the words with one bit agree everywhere. -/
theorem Linear.ext (first : Linear f) (second : Linear g)
    (basis : ∀ i < v, f (BitVec.twoPow v i) = g (BitVec.twoPow v i)) (x : BitVec v) : f x = g x := by
  have below (n : Nat) : ∀ x : BitVec v, (∀ i, n ≤ i → x.getLsbD i = false) → f x = g x := by
    induction n with
    | zero =>
      intro x clear
      obtain rfl : x = 0 := BitVec.eq_of_getLsbD_eq (fun i _ => by simp [clear i (Nat.zero_le i)])
      rw [first.zero,second.zero]
    | succ n ih =>
      intro x clear
      by_cases bit : x.getLsbD n = true
      · have inside : n < v := BitVec.lt_of_getLsbD bit
        have rest : f (x ^^^ BitVec.twoPow v n) = g (x ^^^ BitVec.twoPow v n) := by
          refine ih _ (fun i above => ?_)
          rcases Nat.eq_or_lt_of_le above with rfl | later
          · simp [bit,inside]
          · simp [clear i later,inside,Nat.ne_of_lt later]
        rw [first,second,basis n inside] at rest
        exact (BitVec.xor_left_inj _).mp rest
      · refine ih x (fun i above => ?_)
        rcases Nat.eq_or_lt_of_le above with rfl | later
        · simpa using bit
        · exact clear i later
  exact below v x (fun i above => BitVec.getLsbD_of_ge x i above)

/-- Columns that give back the words with one bit undo the map. -/
theorem Linear.undone (linear : Linear f) (columns : List (BitVec v))
    (inverse : ∀ i < v, combine columns (f (BitVec.twoPow v i)) = BitVec.twoPow v i) {x : BitVec v} (clear : f x = 0) : x = 0 := by
  have back := ((linear_combine columns).comp linear).ext linear_id inverse x
  rw [← back,clear,(linear_combine columns).zero]

end XorLinear
