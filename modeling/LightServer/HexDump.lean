import LightServer.Base.Memory
import LightServer.SocketObject

/-! `SnprintIntBuffer` of `common_funcs.h`, which writes words as hexadecimal text into a buffer of
`max_size` characters. The last of its calls to `snprintf` is not checked. -/
namespace LightServer

def hexDigit (digit : UInt32) : UInt8 := if digit < 10 then 0x30+digit.toUInt8 else 0x57+digit.toUInt8

/-- `%08x`. -/
def hexWord (word : UInt32) : List UInt8 := [28,24,20,16,12,8,4,0].map (fun shift : UInt32 => hexDigit (word >>> shift &&& 0xf))

/-- `"\r\n"`. -/
def lineEnd : List UInt8 := [0x0d,0x0a]

/-- `snprintf(&buf[pos], n, ..)` of what comes out as `text`: it stores what there is room for and a zero
after it, and it returns the length of the whole. -/
def snprintf (buf : List UInt8) (pos n : Nat) (text : List UInt8) : Nat × List UInt8 :=
  (text.length,if n = 0 then buf else Memory.stored buf pos (text.take (n-1) ++ [0]))

/-- The buffer, `p_out - p_wr_buf` and `n`. -/
structure Dump where
  buf : List UInt8
  pOut : Nat
  n : Nat

namespace Dump

/-- A call to `snprintf` with the test after it; it leaves the buffer alone where the function returns -1. -/
def put (text : List UInt8) (dump : Dump) : Except (List UInt8) Dump :=
  let (wrLen,buf) := snprintf dump.buf dump.pOut dump.n text
  if wrLen ≥ dump.n then .error buf else .ok ⟨buf,dump.pOut+wrLen,dump.n-wrLen⟩

/-- The body of the loop. -/
def word (baseLineNo i word : UInt32) (dump : Dump) : Except (List UInt8) Dump := do
  let dump ← if i % 8 = 0 then dump.put (hexWord (i+baseLineNo) ++ [0x3a]) else pure dump
  let dump ← dump.put (hexWord word ++ [0x20])
  if i &&& 7 = 7 then dump.put lineEnd else pure dump

def words (baseLineNo : UInt32) : UInt32 → List UInt32 → Dump → Except (List UInt8) Dump
  | _, [], dump => pure dump
  | i, next::rest, dump => do
    let dump ← dump.word baseLineNo i next
    words baseLineNo (i+1) rest dump

end Dump

/-- `SnprintIntBuffer` where `max_size` is an `int`. -/
def snprintIntBuffer (wrBuf : List UInt8) (maxSize : Nat) (srcBuf : List UInt32) (baseLineNo : UInt32) : Int × List UInt8 :=
  match Dump.words baseLineNo 0 srcBuf ⟨wrBuf,0,maxSize⟩ with
  | .error buf => (-1,buf)
  | .ok dump =>
    let (wrLen,buf) := snprintf dump.buf dump.pOut dump.n lineEnd
    (int32 (dump.pOut+wrLen),buf)

/-! The complete dump. -/

/-- The text for the word at `index`. -/
def wordText (baseLineNo : UInt32) (index : Nat) (word : UInt32) : List UInt8 :=
  (if index % 8 = 0 then hexWord (UInt32.ofNat index+baseLineNo) ++ [0x3a] else []) ++ (hexWord word ++ [0x20]) ++
    if index % 8 = 7 then lineEnd else []

/-- The text for the words from `index` on. -/
def wordsText (baseLineNo : UInt32) : Nat → List UInt32 → List UInt8
  | _, [] => []
  | index, word::rest => wordText baseLineNo index word ++ wordsText baseLineNo (index+1) rest

def dumpText (baseLineNo : UInt32) (srcBuf : List UInt32) : List UInt8 := wordsText baseLineNo 0 srcBuf ++ lineEnd

/-- The length of the text for the first `count` words. -/
def wordsLength (count : Nat) : Nat := 9*((count+7)/8)+9*count+2*(count/8)

theorem wordText_length (baseLineNo : UInt32) (index : Nat) (word : UInt32) :
    wordsLength index+(wordText baseLineNo index word).length = wordsLength (index+1) := by
  have size (word : UInt32) : (hexWord word).length = 8 := rfl
  have ending : lineEnd.length = 2 := rfl
  simp only [wordText,List.length_append,apply_ite List.length,size,ending,List.length_cons,List.length_nil,wordsLength]
  split_ifs <;> omega

theorem wordsText_length (baseLineNo : UInt32) (index : Nat) (srcBuf : List UInt32) :
    wordsLength index+(wordsText baseLineNo index srcBuf).length = wordsLength (index+srcBuf.length) := by
  induction srcBuf generalizing index with
  | nil => rfl
  | cons word rest ih =>
    have first := wordText_length baseLineNo index word
    have later := ih (index+1)
    rw [wordsText,List.length_append,List.length_cons,show index+(rest.length+1) = index+1+rest.length by omega]
    omega

theorem dumpText_length (baseLineNo : UInt32) (srcBuf : List UInt32) :
    (dumpText baseLineNo srcBuf).length = wordsLength srcBuf.length+2 := by
  have body := wordsText_length baseLineNo 0 srcBuf
  rw [Nat.zero_add,show wordsLength 0 = 0 from rfl,Nat.zero_add] at body
  rw [dumpText,List.length_append,body]
  rfl

namespace Dump

/-- `text` has been written to a buffer of `maxSize` characters, and there is room for a zero. -/
structure At (maxSize : Nat) (dump : Dump) (text : List UInt8) : Prop where
  room : maxSize ≤ dump.buf.length
  pOut : dump.pOut = text.length
  left : dump.n+text.length = maxSize
  some_left : 0 < dump.n
  written : dump.buf.take text.length = text

/-- `write` writes `more` where there is room for it and a zero, and fails where there is not. -/
def Puts (maxSize : Nat) (write : Dump → Except (List UInt8) Dump) (more : List UInt8) : Prop :=
  ∀ dump text, At maxSize dump text →
    ((text ++ more).length < maxSize → ∃ next, write dump = .ok next ∧ At maxSize next (text ++ more)) ∧
    (maxSize ≤ (text ++ more).length → ∃ buf, write dump = .error buf)

variable {maxSize : Nat} {write later : Dump → Except (List UInt8) Dump} {more rest : List UInt8}

theorem At.stored {dump : Dump} {text : List UInt8} (at_text : At maxSize dump text) (fits : (text ++ more).length < maxSize) :
    (snprintf dump.buf dump.pOut dump.n more).2.take ((text ++ more).length+1) = text ++ more ++ [0] ∧
      maxSize ≤ (snprintf dump.buf dump.pOut dump.n more).2.length := by
  obtain ⟨room,pOut,left,some_left,written⟩ := at_text
  rw [List.length_append] at fits
  have whole : more.take (dump.n-1) = more := List.take_of_length_le (by omega)
  have size : (text ++ more).length+1 = dump.pOut+(more ++ [0]).length := by simp [pOut,Nat.add_assoc]
  have inside : dump.pOut+(more ++ [0]).length ≤ dump.buf.length := by
    rw [← size,List.length_append]
    omega
  simp only [snprintf,if_neg (show ¬ dump.n = 0 by omega),whole]
  refine ⟨?_,room.trans (Nat.le_of_eq (Memory.stored_length inside).symm)⟩
  rw [size,Memory.stored_take (by omega),pOut,written,List.append_assoc]

theorem puts_put (text : List UInt8) : Puts maxSize (put text) text := by
  intro dump before at_before
  have ⟨room,pOut,left,some_left,written⟩ := at_before
  constructor
  · intro fits
    obtain ⟨stored,size⟩ := at_before.stored fits
    rw [List.length_append] at fits
    refine ⟨_,if_neg (show ¬ text.length ≥ dump.n by omega),size,?_,?_,?_,?_⟩
    · rw [List.length_append,pOut]
    · change dump.n-text.length+_ = _
      rw [List.length_append]
      omega
    · change 0 < dump.n-text.length
      omega
    · have cut := congrArg (List.take (before ++ text).length) stored
      rwa [List.take_take,Nat.min_eq_left (Nat.le_succ _),List.take_left' rfl] at cut
  · intro long
    rw [List.length_append] at long
    exact ⟨_,if_pos (show text.length ≥ dump.n by omega)⟩

theorem puts_pure : Puts maxSize pure [] := by
  intro dump before at_before
  rw [List.append_nil]
  refine ⟨fun _ => ⟨dump,rfl,at_before⟩,fun long => ?_⟩
  have left := at_before.left
  have some_left := at_before.some_left
  omega

theorem Puts.followed (first : Puts maxSize write more) (second : Puts maxSize later rest) :
    Puts maxSize (fun dump => write dump >>= later) (more ++ rest) := by
  intro dump text at_text
  obtain ⟨fits_first,long_first⟩ := first dump text at_text
  by_cases fits : (text ++ more).length < maxSize
  · obtain ⟨next,written,at_next⟩ := fits_first fits
    rw [← List.append_assoc]
    simp only [written]
    exact second next (text ++ more) at_next
  · obtain ⟨buf,failed⟩ := long_first (by omega)
    simp only [failed]
    refine ⟨fun fits_both => absurd fits_both ?_,fun _ => ⟨buf,rfl⟩⟩
    rw [← List.append_assoc,List.length_append]
    omega

theorem puts_ite (maxSize : Nat) (condition : Prop) [Decidable condition] (text : List UInt8) :
    Puts maxSize (fun dump => if condition then dump.put text else pure dump) (if condition then text else []) := by
  split
  · exact puts_put text
  · exact puts_pure

theorem puts_word (baseLineNo : UInt32) (index : Nat) (next : UInt32) :
    Puts maxSize (Dump.word baseLineNo (UInt32.ofNat index) next) (wordText baseLineNo index next) := by
  have start : UInt32.ofNat index % 8 = 0 ↔ index % 8 = 0 := by
    rw [← UInt32.toNat_inj,UInt32.toNat_mod,UInt32.toNat_ofNat']
    change index % 2^32 % 8 = 0 ↔ _
    omega
  have ending : UInt32.ofNat index &&& 7 = 7 ↔ index % 8 = 7 := by
    rw [← UInt32.toNat_inj,UInt32.toNat_and,UInt32.toNat_ofNat']
    change index % 2^32 &&& (2^3-1) = 7 ↔ _
    rw [Nat.and_two_pow_sub_one_eq_mod]
    omega
  have label := puts_ite maxSize (UInt32.ofNat index % 8 = 0)
    (hexWord (UInt32.ofNat index+baseLineNo) ++ [0x3a])
  have line := puts_ite maxSize (UInt32.ofNat index &&& 7 = 7) lineEnd
  have whole := label.followed ((puts_put (hexWord next ++ [0x20])).followed line)
  have body (dump : Dump) : Dump.word baseLineNo (UInt32.ofNat index) next dump =
      ((if UInt32.ofNat index % 8 = 0 then dump.put (hexWord (UInt32.ofNat index+baseLineNo) ++ [0x3a]) else pure dump) >>=
        fun dump => dump.put (hexWord next ++ [0x20]) >>= fun dump =>
          if UInt32.ofNat index &&& 7 = 7 then dump.put lineEnd else pure dump) := by
    rw [Dump.word]
    split <;> rfl
  rw [wordText,List.append_assoc,funext body]
  simp only [← start,← ending]
  exact whole

theorem puts_words (baseLineNo : UInt32) (index : Nat) (srcBuf : List UInt32) :
    Puts maxSize (Dump.words baseLineNo (UInt32.ofNat index) srcBuf) (wordsText baseLineNo index srcBuf) := by
  induction srcBuf generalizing index with
  | nil => exact puts_pure
  | cons next rest ih =>
    have later := ih (index+1)
    rw [UInt32.ofNat_add] at later
    exact (puts_word baseLineNo index next).followed later

end Dump

/-- -1 is returned, as it is where the dump does not fit, or the length of the dump that the buffer holds
with a zero after it. -/
def Reported (dump : List UInt8) (maxSize : Nat) (returned : Int × List UInt8) : Prop :=
  (returned.1 = -1 ∨ returned.1 = dump.length ∧ dump.length < maxSize ∧ returned.2.take (dump.length+1) = dump ++ [0]) ∧
  (maxSize ≤ dump.length → returned.1 = -1)

instance (dump : List UInt8) (maxSize : Nat) (returned : Int × List UInt8) : Decidable (Reported dump maxSize returned) :=
  inferInstanceAs (Decidable (_ ∧ _))

variable {wrBuf : List UInt8} {maxSize : Nat} {srcBuf : List UInt32} {baseLineNo : UInt32}

/-- What is returned depends on the room for the dump without its last line end. -/
theorem snprintIntBuffer_cases (srcBuf : List UInt32) (baseLineNo : UInt32) (some_room : 0 < maxSize) (room : maxSize ≤ wrBuf.length) :
    (wordsLength srcBuf.length < maxSize ∧
      (snprintIntBuffer wrBuf maxSize srcBuf baseLineNo).1 = int32 (wordsLength srcBuf.length+2 : Nat) ∧
      (wordsLength srcBuf.length+2 < maxSize →
        (snprintIntBuffer wrBuf maxSize srcBuf baseLineNo).2.take (wordsLength srcBuf.length+2+1) =
          dumpText baseLineNo srcBuf ++ [0])) ∨
    (maxSize ≤ wordsLength srcBuf.length ∧ (snprintIntBuffer wrBuf maxSize srcBuf baseLineNo).1 = -1) := by
  have start : Dump.At maxSize ⟨wrBuf,0,maxSize⟩ [] := ⟨room,rfl,rfl,some_room,rfl⟩
  obtain ⟨fits,long⟩ := Dump.puts_words baseLineNo 0 srcBuf _ _ start
  have whole := dumpText_length baseLineNo srcBuf
  have size : (wordsText baseLineNo 0 srcBuf).length+2 = wordsLength srcBuf.length+2 := by
    rwa [dumpText,List.length_append] at whole
  rw [List.nil_append] at fits long
  rw [snprintIntBuffer]
  by_cases enough : wordsLength srcBuf.length < maxSize
  · obtain ⟨dump,written,at_end⟩ := fits (by omega)
    change Dump.words baseLineNo 0 srcBuf _ = _ at written
    have last : dump.pOut+lineEnd.length = wordsLength srcBuf.length+2 := by
      rw [at_end.pOut,← size]
      rfl
    rw [written]
    refine .inl ⟨enough,?_,fun room_left => ?_⟩
    · simp only [snprintf,← last,Int.natCast_add]
    · rw [← whole] at room_left ⊢
      exact (at_end.stored room_left).1
  · obtain ⟨buf,failed⟩ := long (by omega)
    change Dump.words baseLineNo 0 srcBuf _ = _ at failed
    rw [failed]
    exact .inr ⟨by omega,rfl⟩

/-- What is reported is right unless the dump is as long as the buffer, or a character longer. -/
theorem snprintIntBuffer_reported_iff (some_room : 0 < maxSize) (small : maxSize < 2^31) (room : maxSize ≤ wrBuf.length) :
    (Reported (dumpText baseLineNo srcBuf) maxSize (snprintIntBuffer wrBuf maxSize srcBuf baseLineNo) ↔
      wordsLength srcBuf.length+2 ≠ maxSize ∧ wordsLength srcBuf.length+2 ≠ maxSize+1) ∧
    ((dumpText baseLineNo srcBuf).length < maxSize →
      (snprintIntBuffer wrBuf maxSize srcBuf baseLineNo).1 = (dumpText baseLineNo srcBuf).length) := by
  have whole := dumpText_length baseLineNo srcBuf
  rw [Reported,whole]
  rcases snprintIntBuffer_cases srcBuf baseLineNo some_room room with
    ⟨enough,returned,holds⟩ | ⟨long,returned⟩
  · by_cases fits : wordsLength srcBuf.length+2 < maxSize
    · have length : int32 (wordsLength srcBuf.length+2 : Nat) = (wordsLength srcBuf.length+2 : Nat) :=
        int32_of_lt (by omega) (by omega)
      have exact_length := returned.trans length
      exact ⟨⟨fun _ => by omega,fun _ => ⟨.inr ⟨exact_length,fits,holds fits⟩,fun long => by omega⟩⟩,fun _ => exact_length⟩
    · refine ⟨⟨fun reported => ?_,fun apart => by omega⟩,fun fits' => absurd fits' fits⟩
      have wrong := returned.symm.trans (reported.2 (by omega))
      rw [int32,Int.bmod] at wrong
      split at wrong <;> omega
  · exact ⟨⟨fun _ => by omega,fun _ => ⟨.inl returned,fun _ => returned⟩⟩,fun fits => by omega⟩

/-- One word, and a character more than the dump has. -/
theorem one_word_reported :
    Reported (dumpText 0 [0x12345678]) 21 (snprintIntBuffer (List.replicate 21 0x23) 21 [0x12345678] 0) :=
  (snprintIntBuffer_reported_iff (by decide) (by decide) (by decide)).1.mpr (by decide)

/-- One word, and the line end cut off after its first character. -/
theorem cut_line_end_reported :
    snprintIntBuffer (List.replicate 20 0x23) 20 [0x12345678] 0 = (20,(dumpText 0 [0x12345678]).take 19 ++ [0]) ∧
      ¬ Reported (dumpText 0 [0x12345678]) 20 (snprintIntBuffer (List.replicate 20 0x23) 20 [0x12345678] 0) := by
  decide +kernel

end LightServer
