import LightServer.Base.Crc
import LightServer.Base.XorLinear

/-! Messages that differ in the top of one word and the bottom of the next: the register tells them
apart where the columns that undo one word of the check are known. -/
namespace Crc

open XorLinear

variable {w n m : Nat}

theorem bits_zero : bits (0 : BitVec w) = List.replicate w false := by
  apply List.ext_getElem
  · simp [length_bits]
  · simp [bits]

/-- The register moved on by a word of zeros. -/
def shift (poly crc : BitVec w) : BitVec w := feedBits poly crc (bits (0 : BitVec w))

theorem linear_shift (poly : BitVec w) : Linear (shift poly) := by
  intro x y
  simp only [shift,bits_zero]
  rw [feedBits_xor,List.length_replicate]

theorem feedWords_cons (poly crc word : BitVec w) (rest : List (BitVec w)) :
    feedWords poly crc (word::rest) = feedWords poly (shift poly (crc ^^^ word)) rest := by
  change feedWords poly (feedBits poly crc (bits word)) rest = _
  rw [feedBits_word]
  rfl

/-- What one word of zeros makes of the top of the register, at the top. -/
def straddle (poly : BitVec (n+m)) (high : BitVec n) : BitVec n := top n (shift poly (high ++ (0 : BitVec m)))

theorem linear_straddle (poly : BitVec (n+m)) : Linear (straddle poly) := by
  intro x y
  have parts : (x ^^^ y) ++ (0 : BitVec m) = (x ++ (0 : BitVec m)) ^^^ (y ++ (0 : BitVec m)) := by
    rw [BitVec.xor_append]
    simp
  simp only [straddle,parts,linear_shift poly _ _]
  simp [top,BitVec.ushiftRight_xor_distrib]

theorem high_of_low (x : BitVec (n+m)) (clear : ∀ i < m, x.getLsbD i = false) : top n x ++ (0 : BitVec m) = x := by
  apply BitVec.eq_of_getLsbD_eq
  intro i inside
  by_cases low : i < m
  · simp [BitVec.getLsbD_append,low,clear i low]
  · have place : m+(i-m) = i := by omega
    simp [BitVec.getLsbD_append,low,top,place,show i-m < n by omega]

theorem xor_move {a b c d : BitVec w} (same : a ^^^ b = c ^^^ d) : a ^^^ c = b ^^^ d := by
  calc a ^^^ c = (a ^^^ b) ^^^ (b ^^^ c) := by
        rw [BitVec.xor_assoc a b,← BitVec.xor_assoc b b]
        simp
    _ = (c ^^^ d) ^^^ (c ^^^ b) := by rw [same,BitVec.xor_comm b c]
    _ = b ^^^ d := by
      rw [xor_step,BitVec.xor_self,BitVec.xor_comm d b]
      simp

/-- Two messages whose difference lies in the top `n` bits of one word and the other bits of the next. -/
theorem straddling_words {poly : BitVec (n+m)} (odd : poly.getLsbD 0 = true) (columns : List (BitVec n))
    (inverse : ∀ i < n, combine columns (straddle poly (BitVec.twoPow n i)) = BitVec.twoPow n i)
    {crc x y x' y' : BitVec (n+m)} {after : List (BitVec (n+m))} (low : ∀ i < m, x.getLsbD i = y.getLsbD i)
    (high : ∀ i, m ≤ i → x'.getLsbD i = y'.getLsbD i)
    (same : feedWords poly crc (x::x'::after) = feedWords poly crc (y::y'::after)) : x = y ∧ x' = y' := by
  have fed : shift poly (crc ^^^ x) ^^^ x' = shift poly (crc ^^^ y) ^^^ y' := by
    simp only [feedWords_cons] at same
    have shifted : shift poly (shift poly (crc ^^^ x) ^^^ x') = shift poly (shift poly (crc ^^^ y) ^^^ y') :=
      feedWords_injective odd same
    exact feedBits_injective odd shifted
  have difference : shift poly (x ^^^ y) = x' ^^^ y' := by
    have sum : x ^^^ y = (crc ^^^ x) ^^^ (crc ^^^ y) := by
      rw [xor_step]
      simp
    rw [sum,linear_shift poly _ _]
    exact xor_move fed
  have clear : straddle poly (top n (x ^^^ y)) = 0 := by
    rw [straddle,high_of_low _ (fun i inside => by simp [low i inside]),difference]
    apply BitVec.eq_of_getLsbD_eq
    intro i inside
    simp [top,inside,high (m+i) (by omega)]
  have none : x ^^^ y = 0 := by
    rw [← high_of_low (x ^^^ y) (fun i inside => by simp [low i inside]),(linear_straddle poly).undone columns inverse clear]
    simp
  obtain rfl : x = y := by simpa using none
  exact ⟨rfl,(BitVec.xor_right_inj _).mp fed⟩

end Crc
