import Mathlib.Data.List.OfFn

/-! Cyclic redundancy checks over a register of any width: the register moves left, and takes the
bits of a word from its most significant end. -/
namespace Crc

variable {w v : Nat}

/-- The register after one more bit of the message. -/
def feedBit (poly crc : BitVec w) (bit : Bool) : BitVec w := (crc <<< 1) ^^^ (if crc.msb ^^ bit then poly else 0)

def feedBits (poly : BitVec w) : BitVec w → List Bool → BitVec w := List.foldl (feedBit poly)

/-- The bits of a word, the most significant one first. -/
def bits (word : BitVec v) : List Bool := List.ofFn (fun i : Fin v => word.getMsbD i)

def feedWords (poly : BitVec w) : BitVec w → List (BitVec v) → BitVec w :=
  List.foldl (fun crc word => feedBits poly crc (bits word))

/-- The bits of the message with those at the top of the register added to them. -/
def mix : BitVec w → List Bool → List Bool
  | _, [] => []
  | crc, bit::rest => (crc.msb ^^ bit)::mix (crc <<< 1) rest

/-- The first `v` bits of the register. -/
def top (v : Nat) (crc : BitVec w) : BitVec v := (crc >>> (w-v)).setWidth v

theorem length_bits (word : BitVec v) : (bits word).length = v := List.length_ofFn

theorem feedBits_append (poly crc : BitVec w) (first second : List Bool) :
    feedBits poly crc (first++second) = feedBits poly (feedBits poly crc first) second := List.foldl_append

theorem feedWords_append (poly crc : BitVec w) (first second : List (BitVec v)) :
    feedWords poly crc (first++second) = feedWords poly (feedWords poly crc first) second := List.foldl_append

theorem feedBits_bits (poly crc : BitVec w) (words : List (BitVec v)) :
    feedBits poly crc (words.flatMap bits) = feedWords poly crc words := by
  induction words generalizing crc with
  | nil => rfl
  | cons word words ih =>
    rw [List.flatMap_cons,feedBits_append,ih]
    rfl

theorem bits_append (high : BitVec w) (low : BitVec v) : bits (high ++ low) = bits high ++ bits low := by
  apply List.ext_getElem
  · simp [length_bits]
  · intro i inside _
    rw [length_bits] at inside
    by_cases first : i < w
    · simp [bits,first,BitVec.getMsbD_append]
    · simp [bits,BitVec.getMsbD_append,show w ≤ i by omega]

theorem bits_injective {x y : BitVec v} (same : bits x = bits y) : x = y := by
  apply BitVec.eq_of_getMsbD_eq
  intro i inside
  exact congrFun (List.ofFn_injective same) ⟨i,inside⟩

/-- The parts of a word can be told from the word. -/
theorem parts_of_append {x y : BitVec w} {x' y' : BitVec v} (same : x ++ x' = y ++ y') : x = y ∧ x' = y' := by
  have all := congrArg bits same
  rw [bits_append,bits_append] at all
  obtain ⟨high,low⟩ := List.append_inj all (by rw [length_bits,length_bits])
  exact ⟨bits_injective high,bits_injective low⟩

/-! The register is linear in what it holds and what it is fed. -/

theorem xor_step (a b c d : BitVec w) : (a ^^^ b) ^^^ (c ^^^ d) = (a ^^^ c) ^^^ (b ^^^ d) := by ac_rfl

theorem feedBit_xor (poly x y : BitVec w) (bit : Bool) :
    feedBit poly (x ^^^ y) bit = feedBit poly x bit ^^^ feedBit poly y false := by
  rw [feedBit,feedBit,feedBit,BitVec.shiftLeft_xor_distrib,xor_step,BitVec.msb_xor]
  cases x.msb <;> cases y.msb <;> cases bit <;> simp

theorem feedBits_xor (poly x y : BitVec w) (input : List Bool) :
    feedBits poly (x ^^^ y) input = feedBits poly x input ^^^ feedBits poly y (List.replicate input.length false) := by
  induction input generalizing x y with
  | nil => rfl
  | cons bit rest ih =>
    change feedBits poly (feedBit poly (x ^^^ y) bit) rest = _
    rw [feedBit_xor,ih]
    rfl

/-- What the register holds acts through the bits it adds to the message, and moves out at the top. -/
theorem feedBits_mix (poly crc : BitVec w) (input : List Bool) :
    feedBits poly crc input = feedBits poly 0 (mix crc input) ^^^ crc <<< input.length := by
  induction input generalizing crc with
  | nil => simp [feedBits,mix]
  | cons bit rest ih =>
    have size : (mix (crc <<< 1) rest).length = rest.length := by
      clear ih
      induction rest generalizing crc with
      | nil => rfl
      | cons bit rest ih => rw [mix,List.length_cons,List.length_cons,ih]
    have first : feedBit poly 0 (crc.msb ^^ bit) = 0 ^^^ (if crc.msb ^^ bit then poly else 0) := by simp [feedBit]
    calc feedBits poly crc (bit::rest)
        = feedBits poly ((crc <<< 1) ^^^ (if crc.msb ^^ bit then poly else 0)) rest := rfl
      _ = (feedBits poly 0 (mix (crc <<< 1) rest) ^^^ crc <<< 1 <<< rest.length) ^^^
            feedBits poly (if crc.msb ^^ bit then poly else 0) (List.replicate rest.length false) := by rw [feedBits_xor,ih]
      _ = feedBits poly (feedBit poly 0 (crc.msb ^^ bit)) (mix (crc <<< 1) rest) ^^^ crc <<< 1 <<< rest.length := by
        rw [first,feedBits_xor,size]
        ac_rfl
      _ = feedBits poly 0 (mix crc (bit::rest)) ^^^ crc <<< (bit::rest).length := by
        rw [← BitVec.shiftLeft_add,Nat.add_comm 1]
        rfl

theorem getElem?_mix (crc : BitVec w) (input : List Bool) (i : Nat) :
    (mix crc input)[i]? = input[i]?.map (fun bit => crc.getMsbD i ^^ bit) := by
  induction input generalizing crc i with
  | nil => rfl
  | cons bit rest ih =>
    cases i with
    | zero => simp [mix,BitVec.msb_eq_getMsbD_zero]
    | succ i => simp [mix,ih,BitVec.getMsbD_shiftLeft]

theorem getMsbD_top (narrow : v ≤ w) (crc : BitVec w) {i : Nat} (inside : i < v) : (top v crc).getMsbD i = crc.getMsbD i := by
  have start : v-1-i < v := by omega
  have same : w-v+(v-1-i) = w-1-i := by omega
  simp [top,BitVec.getMsbD,inside,start,same,show i < w by omega]

theorem mix_bits (narrow : v ≤ w) (crc : BitVec w) (word : BitVec v) : mix crc (bits word) = bits (top v crc ^^^ word) := by
  apply List.ext_getElem?
  intro i
  rw [getElem?_mix]
  by_cases inside : i < v
  · simp [bits,inside,getMsbD_top narrow]
  · simp [bits,inside]

/-- The table method: a word is fed by an entry that depends on it and on the top of the register only. -/
theorem feedBits_table (narrow : v ≤ w) (poly crc : BitVec w) (word : BitVec v) :
    feedBits poly crc (bits word) = feedBits poly 0 (bits (top v crc ^^^ word)) ^^^ crc <<< v := by
  rw [feedBits_mix,mix_bits narrow,length_bits]

/-! What the register held before, and a whole word it was fed, can be told from what it holds after,
where the polynomial has a constant term. -/

theorem feedBit_injective {poly : BitVec w} (odd : poly.getLsbD 0 = true) {x y : BitVec w} {bit : Bool}
    (same : feedBit poly x bit = feedBit poly y bit) : x = y := by
  have wide : 0 < w := BitVec.lt_of_getLsbD odd
  have low (z : BitVec w) : (feedBit poly z bit).getLsbD 0 = (z.msb ^^ bit) := by
    rw [feedBit]
    cases z.msb ^^ bit <;> simp [odd,wide]
  have msb : x.msb = y.msb := by
    have equal := congrArg (fun z => BitVec.getLsbD z 0) same
    simp only [low] at equal
    simpa using equal
  have rest : x <<< 1 = y <<< 1 := by
    rw [feedBit,feedBit,msb] at same
    exact (BitVec.xor_left_inj _).mp same
  apply BitVec.eq_of_getMsbD_eq
  intro i inside
  cases i with
  | zero => rwa [← BitVec.msb_eq_getMsbD_zero,← BitVec.msb_eq_getMsbD_zero]
  | succ i => simpa [BitVec.getMsbD_shiftLeft] using congrArg (fun z => BitVec.getMsbD z i) rest

theorem feedBits_injective {poly : BitVec w} (odd : poly.getLsbD 0 = true) {x y : BitVec w} {input : List Bool}
    (same : feedBits poly x input = feedBits poly y input) : x = y := by
  induction input generalizing x y with
  | nil => exact same
  | cons bit rest ih => exact feedBit_injective odd (ih same)

theorem feedWords_injective {poly : BitVec w} (odd : poly.getLsbD 0 = true) {x y : BitVec w} {words : List (BitVec v)}
    (same : feedWords poly x words = feedWords poly y words) : x = y := by
  rw [← feedBits_bits,← feedBits_bits] at same
  exact feedBits_injective odd same

/-- A word as wide as the register might as well have been in the register. -/
theorem feedBits_word (poly crc word : BitVec w) : feedBits poly crc (bits word) = feedBits poly (crc ^^^ word) (bits (0 : BitVec w)) := by
  have whole (x : BitVec w) : top w x = x := by
    apply BitVec.eq_of_getMsbD_eq
    intro i inside
    exact getMsbD_top (le_refl w) x inside
  rw [feedBits_table (le_refl w) poly crc,feedBits_table (le_refl w) poly (crc ^^^ word),whole,whole]
  simp

/-- Two messages that differ in one word leave different registers. -/
theorem word_of_feedWords {poly : BitVec w} (odd : poly.getLsbD 0 = true) {crc x y : BitVec w} (before after : List (BitVec w))
    (same : feedWords poly crc (before++x::after) = feedWords poly crc (before++y::after)) : x = y := by
  rw [feedWords_append,feedWords_append] at same
  have fed : feedBits poly (feedWords poly crc before) (bits x) = feedBits poly (feedWords poly crc before) (bits y) :=
    feedWords_injective odd same
  rw [feedBits_word poly _ x,feedBits_word poly _ y] at fed
  exact (BitVec.xor_right_inj _).mp (feedBits_injective odd fed)

end Crc
