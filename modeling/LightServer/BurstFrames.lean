import LightServer.Base.CrcBurst
import LightServer.CorruptFrames
import LightServer.DmPacketRead

/-! A frame that has been changed in at most four bytes in a row is not a valid one, also where
they lie in two words under the checksum. -/
namespace LightServer

open DmFormat

/-- The bytes from `start` on that a burst of four bytes may change. -/
def Burst (start i : Nat) : Prop := start ≤ i ∧ i < start+4

theorem littleEndian_bit (p0 p1 p2 p3 : UInt8) (i : Nat) : (littleEndian p0 p1 p2 p3).getLsbD i =
    if i < 8 then p0.toBitVec.getLsbD i else if i < 16 then p1.toBitVec.getLsbD (i-8)
      else if i < 24 then p2.toBitVec.getLsbD (i-16) else p3.toBitVec.getLsbD (i-24) := by
  simp only [littleEndian,BitVec.getLsbD_append]
  split_ifs <;> first | rfl | omega

/-- The first word of a buffer. -/
def firstWord (s : List UInt8) : BitVec 32 := littleEndian (s.getD 0 0) (s.getD 1 0) (s.getD 2 0) (s.getD 3 0)

theorem wordsOf_first {s : List UInt8} (bytes : s ≠ []) : wordsOf s = firstWord s::wordsOf (s.drop 4) := by
  cases s using wordsOf.induct with
  | case1 => contradiction
  | _ => rfl

/-- What undoes one word of the checksum on the top three, two or one bytes of the register. -/
def topColumns : (n : Nat) → List (BitVec n)
  | 24 => [
   0x8eb423,0x54741d,0x265c19,0x4cb832,0x997064,0xf548b0,0x2d3918,0x5a7230,
   0xb4e460,0xae60b8,0x9b6908,0x7fce4b,0x7128b5,0x6ce549,0xd9ca92,0x743d5c,
   0x66ce9b,0xcd9d36,0xd22637,0x63e416,0x497c0f,0x1c4c3d,0x38987a,0xff84d7]
  | 16 => [
   0x5fbc,0xbf78,0x7f39,0xfe72,0xfd2d,0xfb93,0xa953,0x536f,
   0xf962,0xf30d,0xe7d3,0xce6f,0xc2ab,0xdb23,0xe833,0x8e13]
  | 8 => [0x37,0x6e,0xeb,0x9d,0x71,0xd5,0xd6,0xd0]
  | _ => []

theorem straddling_bytes {start : Nat} (inside : start = 1 ∨ start = 2 ∨ start = 3) {crc x y x' y' : BitVec 32} {after : List (BitVec 32)}
    (low : ∀ i < 8*start, x.getLsbD i = y.getLsbD i) (high : ∀ i, 8*start ≤ i → x'.getLsbD i = y'.getLsbD i)
    (same : Crc.feedWords polynomial crc (x::x'::after) = Crc.feedWords polynomial crc (y::y'::after)) : x = y ∧ x' = y' := by
  have odd : polynomial.getLsbD 0 = true := by decide
  rcases inside with rfl | rfl | rfl
  · exact Crc.straddling_words (n := 24) (m := 8) odd (topColumns 24) (by decide +kernel) low high same
  · exact Crc.straddling_words (n := 16) (m := 16) odd (topColumns 16) (by decide +kernel) low high same
  · exact Crc.straddling_words (n := 8) (m := 24) odd (topColumns 8) (by decide +kernel) low high same

theorem firstWord_bit (s : List UInt8) (i : Nat) :
    (firstWord s).getLsbD i = (decide (i < 32) && (s.getD (i/8) 0).toBitVec.getLsbD (i%8)) := by
  rw [firstWord,littleEndian_bit]
  by_cases inside : i < 32
  · rcases show i/8 = 0 ∨ i/8 = 1 ∨ i/8 = 2 ∨ i/8 = 3 by omega with byte | byte | byte | byte
    · simp [byte,inside,show i < 8 by omega,show i%8 = i by omega]
    · simp [byte,inside,show ¬ i < 8 by omega,show i < 16 by omega,show i%8 = i-8 by omega]
    · simp [byte,inside,show ¬ i < 8 by omega,show ¬ i < 16 by omega,show i < 24 by omega,show i%8 = i-16 by omega]
    · simp [byte,inside,show ¬ i < 8 by omega,show ¬ i < 16 by omega,show ¬ i < 24 by omega,show i%8 = i-24 by omega]
  · simp [inside,show ¬ i < 8 by omega,show ¬ i < 16 by omega,show ¬ i < 24 by omega,show 8 ≤ i-24 by omega]

variable {a b : List UInt8}

theorem firstWord_bytes (same : firstWord a = firstWord b) {i : Nat} (inside : i < 4) : a.getD i 0 = b.getD i 0 := by
  obtain ⟨first,second,third,fourth⟩ := littleEndian_injective same
  rcases show i = 0 ∨ i = 1 ∨ i = 2 ∨ i = 3 by omega with rfl | rfl | rfl | rfl
  · exact first
  · exact second
  · exact third
  · exact fourth

theorem getElem?_of_getD (size : a.length = b.length) {i : Nat} (same : a.getD i 0 = b.getD i 0) : a[i]? = b[i]? := by
  by_cases inside : i < a.length
  · simpa [List.getD_eq_getElem?_getD,inside,size ▸ inside] using same
  · rw [List.getElem?_eq_none (by omega),List.getElem?_eq_none (by omega)]

/-- Two buffers that agree outside four bytes in a row are told apart by the checksum. -/
theorem feedWords_burst (size : a.length = b.length) (start : Nat) (outside : ∀ i, ¬ Burst start i → a[i]? = b[i]?)
    {crc : BitVec 32} (same : Crc.feedWords polynomial crc (wordsOf a) = Crc.feedWords polynomial crc (wordsOf b)) : a = b := by
  induction start using Nat.strongRecOn generalizing a b crc with
  | ind start ih =>
    have byte {i : Nat} (apart : ¬ Burst start i) : a.getD i 0 = b.getD i 0 := by
      rw [List.getD_eq_getElem?_getD,List.getD_eq_getElem?_getD,outside i apart]
    by_cases none : a = []
    · subst none
      exact (List.length_eq_zero_iff.mp size.symm).symm
    have none' : b ≠ [] := by
      rintro rfl
      exact none (List.length_eq_zero_iff.mp size)
    by_cases short : a.length ≤ 4 ∨ start = 0
    · refine feedWords_one size 0 (fun i other => ?_) same
      rcases short with short | rfl
      · rw [List.getElem?_eq_none (by omega),List.getElem?_eq_none (by omega)]
      · exact outside i (fun inside => other (by unfold Burst at inside; omega))
    have more : a.drop 4 ≠ [] := by
      simp only [ne_eq,List.drop_eq_nil_iff]
      omega
    have more' : b.drop 4 ≠ [] := by
      simp only [ne_eq,List.drop_eq_nil_iff]
      omega
    have dropped (i : Nat) (apart : ¬ Burst start (4+i)) : (a.drop 4)[i]? = (b.drop 4)[i]? := by
      rw [List.getElem?_drop,List.getElem?_drop]
      exact outside (4+i) apart
    have parts (front : firstWord a = firstWord b) (rest : ∀ i, a[4+i]? = b[4+i]?) : a = b := by
      apply List.ext_getElem?
      intro i
      by_cases first : i < 4
      · exact getElem?_of_getD size (firstWord_bytes front first)
      · simpa [show 4+(i-4) = i by omega] using rest (i-4)
    rw [wordsOf_first none,wordsOf_first none'] at same
    by_cases later : 4 ≤ start
    · have front : firstWord a = firstWord b := by
        simp only [firstWord]
        rw [byte (show ¬ Burst start 0 by unfold Burst; omega),byte (show ¬ Burst start 1 by unfold Burst; omega),
          byte (show ¬ Burst start 2 by unfold Burst; omega),byte (show ¬ Burst start 3 by unfold Burst; omega)]
      rw [front,Crc.feedWords_cons,Crc.feedWords_cons] at same
      have rest : a.drop 4 = b.drop 4 := ih (start-4) (by omega) (by simp [size])
        (fun i apart => dropped i (fun inside => apart (by unfold Burst at inside ⊢; omega))) same
      refine parts front (fun i => ?_)
      rw [← List.getElem?_drop,← List.getElem?_drop,rest]
    · have after : (a.drop 4).drop 4 = (b.drop 4).drop 4 := by
        apply List.ext_getElem?
        intro i
        simpa only [List.getElem?_drop] using dropped (4+i) (fun inside => by unfold Burst at inside; omega)
      rw [wordsOf_first more,wordsOf_first more',after] at same
      have low : ∀ i < 8*start, (firstWord a).getLsbD i = (firstWord b).getLsbD i := by
        intro i low
        rw [firstWord_bit,firstWord_bit,byte (show ¬ Burst start (i/8) by unfold Burst; omega)]
      have high : ∀ i, 8*start ≤ i → (firstWord (a.drop 4)).getLsbD i = (firstWord (b.drop 4)).getLsbD i := by
        intro i high
        have apart : ¬ Burst start (4+i/8) := by unfold Burst; omega
        rw [firstWord_bit,firstWord_bit,List.getD_eq_getElem?_getD,List.getD_eq_getElem?_getD,dropped _ apart]
      obtain ⟨front,next⟩ := straddling_bytes (show start = 1 ∨ start = 2 ∨ start = 3 by omega) low high same
      refine parts front (fun i => ?_)
      by_cases inside : i < 4
      · rw [← List.getElem?_drop,← List.getElem?_drop]
        exact getElem?_of_getD (by simp [size]) (firstWord_bytes next inside)
      · exact outside _ (fun hit => by unfold Burst at hit; omega)

theorem calculateStm32Crc_words (s : List UInt8) {len : Nat} (enough : len ≤ s.length) :
    (calculateStm32Crc s len).toBitVec = Crc.feedWords polynomial (UInt32.toBitVec 0xffffffff) (wordsOf (s.take len)) := by
  have taken : (s.take len).length = len := by simp [enough]
  rw [← getStm32Crc_words,taken,getStm32Crc_take _ s len len (le_refl len)]
  rfl

theorem wordsOf_append (whole : 4 ∣ a.length) (b : List UInt8) : wordsOf (a ++ b) = wordsOf a ++ wordsOf b := by
  induction a using wordsOf.induct with
  | case5 p0 p1 p2 p3 rest ih =>
    have later : 4 ∣ rest.length := by simp only [List.length_cons] at whole; omega
    simp only [List.cons_append,wordsOf,ih later]
  | case1 => rfl
  | _ => simp at whole

theorem frame_parts {s : List UInt8} (long : 16 ≤ s.length) :
    s = s.take (s.length-8) ++ ((s.drop (s.length-8)).take 4 ++ (s.drop (s.length-4)).take 4) := by
  have tail : (s.drop (s.length-4)).take 4 = (s.drop (s.length-8)).drop 4 := by
    rw [List.drop_drop,show s.length-8+4 = s.length-4 by omega,List.take_of_length_le (by simp; omega)]
  rw [tail,List.take_append_drop,List.take_append_drop]

variable {frame changed : List UInt8}

/-- The words of a frame up to its tail, the checksum with them, leave an empty register. -/
theorem valid_residue (long : 16 ≤ frame.length) (whole : 4 ∣ frame.length) (valid : isDmPacketValid frame frame.length = true) :
    Crc.feedWords polynomial (UInt32.toBitVec 0xffffffff)
      (wordsOf (frame.take (frame.length-8) ++ (frame.drop (frame.length-8)).take 4)) = 0 := by
  obtain ⟨_,_,_,crc⟩ := (isDmPacketValid_tests _ _).mp valid
  rw [show frame.length-4-4 = frame.length-8 by omega] at crc
  have field : wordsOf ((frame.drop (frame.length-8)).take 4) = [(loadWord (frame.drop (frame.length-8))).toBitVec] := by
    have some_bytes : (frame.drop (frame.length-8)).take 4 ≠ [] := by simp; omega
    have short : ((frame.drop (frame.length-8)).take 4).drop 4 = [] := by simp
    rw [wordsOf_first some_bytes,short,← loadWord_take (frame.drop _),loadWord_bits]
    rfl
  have covered : 4 ∣ (frame.take (frame.length-8)).length := by
    rw [List.length_take,Nat.min_eq_left (by omega)]
    omega
  rw [wordsOf_append covered,field,crc,calculateStm32Crc_words frame (by omega),Crc.feedWords_append,Crc.feedWords_cons]
  rw [BitVec.xor_self]
  exact (Crc.linear_shift polynomial).zero

/-- A valid frame that has been changed in at most four bytes in a row is refused. Where the length is no
multiple of four, the bytes may not lie across the start of the checksum. -/
theorem burst_refused (frame changed : List UInt8) (range : InRange frame.length) (valid : isDmPacketValid frame frame.length = true)
    (start : Nat) (agree : AgreeOutside (Burst start) frame changed) (other : changed ≠ frame)
    (place : 4 ∣ frame.length ∨ start+4 ≤ frame.length-8 ∨ frame.length-8 ≤ start) :
    isDmPacketValid changed frame.length = false := by
  rw [Bool.eq_false_iff]
  intro valid'
  apply other
  obtain ⟨_,_,tail,crc⟩ := (isDmPacketValid_tests _ _).mp valid
  obtain ⟨_,_,tail',crc'⟩ := (isDmPacketValid_tests _ _).mp valid'
  have long : 16 ≤ frame.length := range.1
  have size : changed.length = frame.length := agree.1
  rw [show frame.length-4-4 = frame.length-8 by omega] at crc crc'
  have whole (covered : changed.take (frame.length-8) = frame.take (frame.length-8))
      (field : (changed.drop (frame.length-8)).take 4 = (frame.drop (frame.length-8)).take 4) : changed = frame := by
    have parts := frame_parts (s := changed) (by omega)
    rw [size,covered,field,tail',← tail] at parts
    exact parts.trans (frame_parts long).symm
  rcases place with divides | before | after
  · have residue := valid_residue long divides valid
    have residue' := valid_residue (size ▸ long) (size ▸ divides) (by rwa [size])
    rw [size] at residue'
    have joined (s : List UInt8) : s.take (frame.length-8) ++ (s.drop (frame.length-8)).take 4 = s.take (frame.length-8+4) :=
      List.take_add.symm
    have same : changed.take (frame.length-8+4) = frame.take (frame.length-8+4) := by
      rw [joined] at residue residue'
      refine feedWords_burst (by simp [size]) start (fun i apart => ?_) (residue'.trans residue.symm)
      simp only [List.getElem?_take]
      rw [agree.2 i apart]
    rw [← joined,← joined] at same
    obtain ⟨covered,field⟩ := List.append_inj same (by simp [size])
    exact whole covered field
  · have later : changed.drop (frame.length-8) = frame.drop (frame.length-8) := by
      apply List.ext_getElem?
      intro i
      rw [List.getElem?_drop,List.getElem?_drop]
      exact agree.2 _ (fun hit => by unfold Burst at hit; omega)
    have field : (changed.drop (frame.length-8)).take 4 = (frame.drop (frame.length-8)).take 4 := by rw [later]
    have sums : calculateStm32Crc changed (frame.length-8) = calculateStm32Crc frame (frame.length-8) := by
      rw [← crc,← crc',later]
    have covered : changed.take (frame.length-8) = frame.take (frame.length-8) := by
      have fed := (calculateStm32Crc_words changed (by omega)).symm.trans
        ((congrArg UInt32.toBitVec sums).trans (calculateStm32Crc_words frame (by omega)))
      refine feedWords_burst (by simp [size]) start (fun i apart => ?_) fed
      simp only [List.getElem?_take]
      rw [agree.2 i apart]
    exact whole covered field
  · have covered : changed.take (frame.length-8) = frame.take (frame.length-8) := by
      simpa using agree.part 0 (frame.length-8) (fun i within hit => by unfold Burst at hit; omega)
    have sums : calculateStm32Crc changed (frame.length-8) = calculateStm32Crc frame (frame.length-8) := by
      apply UInt32.toBitVec_inj.mp
      rw [calculateStm32Crc_words changed (by omega),calculateStm32Crc_words frame (by omega),covered]
    refine whole covered (loadWord_injective ?_ ?_ ?_)
    · simp only [List.length_take,List.length_drop]
      omega
    · simp only [List.length_take,List.length_drop]
      omega
    · rw [loadWord_take,loadWord_take,crc,crc',sums]

theorem copyTo_agree {bytes : List UInt8} {start : Nat} (short : bytes.length ≤ 4) (fits : start+bytes.length ≤ frame.length) :
    AgreeOutside (Burst start) frame (copyTo frame start bytes) := by
  refine ⟨copyTo_length fits,fun i apart => ?_⟩
  unfold Burst at apart
  rw [copyTo,List.getElem?_append,List.getElem?_append]
  simp only [List.length_append,List.length_take,Nat.min_eq_left (show start ≤ frame.length by omega)]
  by_cases before : i < start
  · simp [before,show i < start+bytes.length by omega]
  · simp [show ¬ i < start+bytes.length by omega,show start+bytes.length+(i-(start+bytes.length)) = i by omega]

theorem overwritten_length_refused : isDmPacketValid (copyTo emptyFrame 6 [1,2,3,4]) 16 = false :=
  burst_refused emptyFrame (copyTo emptyFrame 6 [1,2,3,4]) (by decide) (by decide +kernel) 6
    (copyTo_agree (by decide) (by decide)) (by decide) (.inl (by decide))

/-! Two valid frames that differ in four bytes in a row, two of them in the checksum. -/

example : isDmPacketValid (payloadFrame [0,0,0,0,0] [5,255,26,0]) 21 = true ∧
    isDmPacketValid (payloadFrame [0,0,0,73,13] [96,220,26,0]) 21 = true := by decide +kernel

end LightServer
