import LightServer.BitwiseCrc
import LightServer.DmFormat

/-! A frame that has been changed in one word under its checksum, in the checksum or in the tail
is not a valid one. -/
namespace LightServer

open DmFormat

theorem loadWord_bits (p : List UInt8) :
    (loadWord p).toBitVec = littleEndian (p.getD 0 0) (p.getD 1 0) (p.getD 2 0) (p.getD 3 0) := by
  simp only [loadWord,littleEndian]
  generalize p.getD 0 0 = p0, p.getD 1 0 = p1, p.getD 2 0 = p2, p.getD 3 0 = p3
  ext i inside
  simp [BitVec.getElem_shiftLeft]
  grind

theorem loadWord_injective {p q : List UInt8} (size : p.length = 4) (size' : q.length = 4) (same : loadWord p = loadWord q) :
    p = q := by
  obtain ⟨p0,p1,p2,p3,rfl⟩ := List.length_eq_four.mp size
  obtain ⟨q0,q1,q2,q3,rfl⟩ := List.length_eq_four.mp size'
  have words := congrArg UInt32.toBitVec same
  rw [loadWord_bits,loadWord_bits] at words
  obtain ⟨rfl,rfl,rfl,rfl⟩ := littleEndian_injective words
  rfl

/-- Two buffers that agree outside one word are told apart by the checksum. -/
theorem feedWords_one {a b : List UInt8} (size : a.length = b.length) (k : Nat) (outside : ∀ i, i/4 ≠ k → a[i]? = b[i]?)
    {crc : BitVec 32} (same : Crc.feedWords polynomial crc (wordsOf a) = Crc.feedWords polynomial crc (wordsOf b)) : a = b := by
  have odd : polynomial.getLsbD 0 = true := by decide
  induction a using wordsOf.induct generalizing b k crc with
  | case1 => exact (List.length_eq_zero_iff.mp size.symm).symm
  | case2 p0 =>
    obtain ⟨q0,rfl⟩ := List.length_eq_one_iff.mp size.symm
    obtain ⟨rfl,_⟩ := littleEndian_injective (Crc.word_of_feedWords odd [] [] same)
    rfl
  | case3 p0 p1 =>
    obtain ⟨q0,q1,rfl⟩ := List.length_eq_two.mp size.symm
    obtain ⟨rfl,rfl,_⟩ := littleEndian_injective (Crc.word_of_feedWords odd [] [] same)
    rfl
  | case4 p0 p1 p2 =>
    obtain ⟨q0,q1,q2,rfl⟩ := List.length_eq_three.mp size.symm
    obtain ⟨rfl,rfl,rfl,_⟩ := littleEndian_injective (Crc.word_of_feedWords odd [] [] same)
    rfl
  | case5 p0 p1 p2 p3 rest ih =>
    obtain ⟨q0,b,rfl⟩ := List.exists_of_length_succ b size.symm
    obtain ⟨q1,b,rfl⟩ := List.exists_of_length_succ b (Nat.succ.inj size.symm)
    obtain ⟨q2,b,rfl⟩ := List.exists_of_length_succ b (Nat.succ.inj (Nat.succ.inj size.symm))
    obtain ⟨q3,rest',rfl⟩ := List.exists_of_length_succ b (Nat.succ.inj (Nat.succ.inj (Nat.succ.inj size.symm)))
    have size' : rest.length = rest'.length := by simpa using size
    have later (i : Nat) (other : i/4+1 ≠ k) : rest[i]? = rest'[i]? := outside (i+4) (by omega)
    cases k with
    | zero =>
      obtain rfl : rest = rest' := List.ext_getElem? (fun i => later i (by omega))
      obtain ⟨rfl,rfl,rfl,rfl⟩ := littleEndian_injective (Crc.word_of_feedWords odd [] (wordsOf rest) same)
      rfl
    | succ k =>
      obtain rfl : p0 = q0 := Option.some.inj (outside 0 (by omega))
      obtain rfl : p1 = q1 := Option.some.inj (outside 1 (by omega))
      obtain rfl : p2 = q2 := Option.some.inj (outside 2 (by omega))
      obtain rfl : p3 = q3 := Option.some.inj (outside 3 (by omega))
      rw [ih size' k (fun i other => later i (by omega)) same]

theorem calculateStm32Crc_one {a b : List UInt8} {len : Nat} (size : a.length = b.length) (enough : len ≤ a.length) (k : Nat)
    (outside : ∀ i, ¬ (i/4 = k ∧ i < len) → a[i]? = b[i]?) (same : calculateStm32Crc a len = calculateStm32Crc b len) : a = b := by
  have taken : (a.take len).length = len := by simp [enough]
  have taken' : (b.take len).length = len := by simp [← size,enough]
  have sums (s : List UInt8) (full : (s.take len).length = len) :
      (calculateStm32Crc s len).toBitVec = Crc.feedWords polynomial (UInt32.toBitVec 0xffffffff) (wordsOf (s.take len)) := by
    rw [← getStm32Crc_words,full,getStm32Crc_take _ s len len (le_refl len)]
    rfl
  have front : a.take len = b.take len := by
    have fed := (sums a taken).symm.trans ((congrArg UInt32.toBitVec same).trans (sums b taken'))
    refine feedWords_one (taken.trans taken'.symm) k (fun i other => ?_) fed
    simp only [List.getElem?_take]
    split
    · exact outside i (fun inside => other inside.1)
    · rfl
  have back : a.drop len = b.drop len := by
    apply List.ext_getElem?
    intro i
    rw [List.getElem?_drop,List.getElem?_drop]
    exact outside _ (fun inside => by omega)
  rw [← List.take_append_drop len a,front,back,List.take_append_drop]

/-- The two frames have one length and the same byte at every offset that is not `inside`. -/
def AgreeOutside (inside : Nat → Prop) (frame changed : List UInt8) : Prop :=
  changed.length = frame.length ∧ ∀ i, ¬ inside i → changed[i]? = frame[i]?

/-- The change lies in one word under the checksum, in the checksum or in the tail. -/
def LocallyChanged (frame changed : List UInt8) : Prop :=
  (∃ k, AgreeOutside (fun i => i/4 = k ∧ i < frame.length-8) frame changed) ∨
    AgreeOutside (fun i => frame.length-8 ≤ i ∧ i < frame.length-4) frame changed ∨
    AgreeOutside (fun i => frame.length-4 ≤ i ∧ i < frame.length) frame changed

variable {frame changed : List UInt8}

theorem AgreeOutside.part {inside : Nat → Prop} (agree : AgreeOutside inside frame changed) (start size : Nat)
    (apart : ∀ i, i < size → ¬ inside (start+i)) : (changed.drop start).take size = (frame.drop start).take size := by
  apply List.ext_getElem?
  intro i
  simp only [List.getElem?_take,List.getElem?_drop]
  split
  · rename_i within
    exact agree.2 _ (apart i within)
  · rfl

theorem AgreeOutside.same {inside : Nat → Prop} (agree : AgreeOutside inside frame changed) (start size : Nat)
    (all : ∀ i, inside i → start ≤ i ∧ i < start+size) (equal : (changed.drop start).take size = (frame.drop start).take size) :
    changed = frame := by
  apply List.ext_getElem?
  intro i
  by_cases within : start ≤ i ∧ i < start+size
  · have byte := congrArg (fun bytes => bytes[i-start]?) equal
    simpa [List.getElem?_take,List.getElem?_drop,show i-start < size by omega,show start+(i-start) = i by omega] using byte
  · exact agree.2 i (fun hit => within (all i hit))

theorem changed_invalid (long : 16 ≤ frame.length) (valid : isDmPacketValid frame frame.length = true)
    (local_change : LocallyChanged frame changed) (valid' : isDmPacketValid changed frame.length = true) : changed = frame := by
  obtain ⟨_,_,tail,crc⟩ := (isDmPacketValid_tests _ _).mp valid
  obtain ⟨_,_,tail',crc'⟩ := (isDmPacketValid_tests _ _).mp valid'
  have place : frame.length-4-4 = frame.length-8 := by omega
  rw [place] at crc crc'
  rcases local_change with ⟨k,agree⟩ | agree | agree
  · have field := agree.part (frame.length-8) 4 (fun i _ inside => by omega)
    have sums : calculateStm32Crc changed (frame.length-8) = calculateStm32Crc frame (frame.length-8) := by
      rw [← crc,← crc',← loadWord_take,field,loadWord_take]
    exact calculateStm32Crc_one agree.1 (by have := agree.1; omega) k agree.2 sums
  · have covered : changed.take (frame.length-8) = frame.take (frame.length-8) := by
      simpa using agree.part 0 (frame.length-8) (fun i within inside => by omega)
    have sums : calculateStm32Crc changed (frame.length-8) = calculateStm32Crc frame (frame.length-8) := by
      rw [calculateStm32Crc,← getStm32Crc_take _ changed _ _ (le_refl _),covered,getStm32Crc_take _ _ _ _ (le_refl _)]
      rfl
    have size := agree.1
    apply agree.same (frame.length-8) 4 (fun i inside => by omega)
    apply loadWord_injective
    · simp only [List.length_take,List.length_drop]
      omega
    · simp only [List.length_take,List.length_drop]
      omega
    · rw [loadWord_take,loadWord_take,crc,crc',sums]
  · exact agree.same (frame.length-4) 4 (fun i inside => by omega) (tail'.trans tail.symm)

theorem set_changed {i : Nat} (inside : i < frame.length) (byte : UInt8) : LocallyChanged frame (frame.set i byte) := by
  have agree {within : Nat → Prop} (hit : within i) : AgreeOutside within frame (frame.set i byte) := by
    refine ⟨List.length_set,fun j outside => ?_⟩
    apply List.getElem?_set_ne
    rintro rfl
    exact outside hit
  by_cases covered : i < frame.length-8
  · exact .inl ⟨i/4,agree ⟨rfl,covered⟩⟩
  · by_cases checksum : i < frame.length-4
    · exact .inr (.inl (agree ⟨by omega,checksum⟩))
    · exact .inr (.inr (agree ⟨by omega,inside⟩))

/-- A valid frame that has been changed in one of these places is refused; so is one with a changed byte. -/
theorem local_corruption_refused (frame : List UInt8) (range : InRange frame.length)
    (valid : isDmPacketValid frame frame.length = true) :
    (∀ changed, LocallyChanged frame changed → changed ≠ frame → isDmPacketValid changed frame.length = false) ∧
    ∀ i byte, i < frame.length → frame[i]? ≠ some byte → isDmPacketValid (frame.set i byte) frame.length = false := by
  have refused (changed : List UInt8) (place : LocallyChanged frame changed) (other : changed ≠ frame) :
      isDmPacketValid changed frame.length = false := by
    rw [Bool.eq_false_iff]
    exact fun valid' => other (changed_invalid range.1 valid place valid')
  refine ⟨refused,fun i byte inside other => refused _ (set_changed inside byte) ?_⟩
  intro same
  apply other
  rw [← same,List.getElem?_set_self inside]

/-- A frame with a payload of five bytes. -/
def payloadFrame (payload crc : List UInt8) : List UInt8 := [0x5b,0x44,0x4d,0x2d,21,0,0,0] ++ payload ++ crc ++ kMsgTail

/-- A changed byte of the payload, which only the checksum shows. -/
theorem corrupted_payload_refused : isDmPacketValid (payloadFrame [0,1,0,0,0] [5,255,26,0]) 21 = false :=
  (local_corruption_refused (payloadFrame [0,0,0,0,0] [5,255,26,0]) (by decide) (by decide +kernel)).2 9 1 (by decide) (by decide)

end LightServer
