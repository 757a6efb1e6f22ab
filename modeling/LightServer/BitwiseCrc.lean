import LightServer.Base.Crc
import LightServer.Stm32Crc
import Mathlib.Data.Fintype.Basic

/-! The checksum of `common_funcs.cpp` is the CRC of the STM32, taken bit by bit. -/
namespace LightServer

/-- `POLYNOMIAL`. -/
def polynomial : BitVec 32 := 0x04c11db7

/-- A word from its bytes in the order of the memory. -/
def littleEndian (p0 p1 p2 p3 : UInt8) : BitVec 32 := p3.toBitVec ++ p2.toBitVec ++ p1.toBitVec ++ p0.toBitVec

theorem littleEndian_injective {p0 p1 p2 p3 q0 q1 q2 q3 : UInt8} (same : littleEndian p0 p1 p2 p3 = littleEndian q0 q1 q2 q3) :
    p0 = q0 ∧ p1 = q1 ∧ p2 = q2 ∧ p3 = q3 := by
  obtain ⟨high,first⟩ := Crc.parts_of_append same
  obtain ⟨high,second⟩ := Crc.parts_of_append high
  obtain ⟨fourth,third⟩ := Crc.parts_of_append high
  exact ⟨UInt8.toBitVec_inj.mp first,UInt8.toBitVec_inj.mp second,UInt8.toBitVec_inj.mp third,UInt8.toBitVec_inj.mp fourth⟩

/-- A buffer in groups of four bytes, the last group padded with zero bytes. -/
def wordsOf : List UInt8 → List (BitVec 32)
  | [] => []
  | [p0] => [littleEndian p0 0 0 0]
  | [p0,p1] => [littleEndian p0 p1 0 0]
  | [p0,p1,p2] => [littleEndian p0 p1 p2 0]
  | p0::p1::p2::p3::rest => littleEndian p0 p1 p2 p3::wordsOf rest

/-- The words of a buffer fed bit by bit, the most significant bit of a word first. -/
def bitwiseCrc (crc : BitVec 32) (s : List UInt8) : BitVec 32 := Crc.feedBits polynomial crc ((wordsOf s).flatMap Crc.bits)

theorem crc32Table_entry (byte : BitVec 8) :
    (crc32Table.getD byte.toNat 0).toBitVec = Crc.feedBits polynomial 0 (Crc.bits byte) := by
  have entries : ∀ i : Fin 256, (crc32Table.getD i 0).toBitVec = Crc.feedBits polynomial 0 (Crc.bits (BitVec.ofFin i : BitVec 8)) := by
    decide +kernel
  exact entries byte.toFin

theorem crcByte_bits (crc : UInt32) (byte : UInt8) :
    (crcByte crc byte).toBitVec = Crc.feedBits polynomial crc.toBitVec (Crc.bits byte.toBitVec) := by
  rw [Crc.feedBits_table (by decide),← crc32Table_entry]
  rfl

theorem crcGroup_bits (crc : UInt32) (p : List UInt8) :
    (crcGroup crc p).toBitVec =
      Crc.feedBits polynomial crc.toBitVec (Crc.bits (littleEndian (p.getD 0 0) (p.getD 1 0) (p.getD 2 0) (p.getD 3 0))) := by
  simp only [crcGroup,crcByte_bits,littleEndian,Crc.bits_append,Crc.feedBits_append]

theorem getStm32Crc_group (crc : UInt32) (p0 p1 p2 p3 : UInt8) (rest : List UInt8) :
    getStm32Crc crc (p0::p1::p2::p3::rest) (p0::p1::p2::p3::rest).length =
      getStm32Crc (crcGroup crc (p0::p1::p2::p3::rest)) rest rest.length := by
  have groups : (p0::p1::p2::p3::rest).length / 4 = rest.length / 4 + 1 := by simp; omega
  have remain : (p0::p1::p2::p3::rest).length % 4 = rest.length % 4 := by simp; omega
  simp only [getStm32Crc,groups,remain,crcLoop,List.drop_succ_cons,List.drop_zero]

theorem getStm32Crc_tail (crc : UInt32) (s : List UInt8) (some_bytes : 0 < s.length) (short : s.length < 4) :
    getStm32Crc crc s s.length = crcGroup crc (s ++ List.replicate (4-s.length) 0) := by
  simp only [getStm32Crc,Nat.div_eq_of_lt short,Nat.mod_eq_of_lt short,crcLoop]
  rw [if_neg (by omega),List.take_length]

theorem getStm32Crc_words (crc : UInt32) (s : List UInt8) :
    (getStm32Crc crc s s.length).toBitVec = Crc.feedWords polynomial crc.toBitVec (wordsOf s) := by
  induction s using wordsOf.induct generalizing crc with
  | case1 => rfl
  | case2 p0 =>
    rw [getStm32Crc_tail crc [p0] (by simp) (by simp),crcGroup_bits]
    rfl
  | case3 p0 p1 =>
    rw [getStm32Crc_tail crc [p0,p1] (by simp) (by simp),crcGroup_bits]
    rfl
  | case4 p0 p1 p2 =>
    rw [getStm32Crc_tail crc [p0,p1,p2] (by simp) (by simp),crcGroup_bits]
    rfl
  | case5 p0 p1 p2 p3 rest ih =>
    rw [getStm32Crc_group,ih,crcGroup_bits]
    rfl

/-- The table-driven checksum is the CRC with this polynomial, bit by bit. -/
theorem get_stm32_crc_bitwise (crc : UInt32) (s : List UInt8) :
    (getStm32Crc crc s s.length).toBitVec = bitwiseCrc crc.toBitVec s := by
  rw [bitwiseCrc,Crc.feedBits_bits]
  exact getStm32Crc_words crc s

end LightServer
