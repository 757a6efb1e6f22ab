import LightServer.Base.Incremental
import LightServer.DmPacket
import Mathlib.Data.List.Induction

/-! The format of a packet, and the machine that reads it a byte at a time. -/
namespace LightServer

namespace DmFormat

def InRange (length : Nat) : Prop := 16 ≤ length ∧ length < kMaxOfMsgSize

instance (length : Nat) : Decidable (InRange length) := inferInstanceAs (Decidable (_ ∧ _))

/-- Header, length, payload, checksum and tail. -/
def ValidFrame (frame : List UInt8) : Prop :=
  ∃ length payload crc, length.length = 4 ∧ crc.length = 4 ∧ frame = kMsgHeader ++ length ++ payload ++ crc ++ kMsgTail ∧
    InRange (loadWord length).toNat ∧ payload.length = (loadWord length).toNat-16 ∧
    loadWord crc = calculateStm32Crc (frame.take ((loadWord length).toNat-8)) ((loadWord length).toNat-8)

/-- What is dropped before the reader looks for a header again. -/
inductive RejectedUnit : List UInt8 → Prop
  | header (group) (size : group.length = 4) (other : group ≠ kMsgHeader) : RejectedUnit group
  | length (length) (size : length.length = 4) (outside : ¬ InRange (loadWord length).toNat) : RejectedUnit (kMsgHeader ++ length)
  | frame (length rest) (size : length.length = 4) (inside : InRange (loadWord length).toNat)
      (whole : rest.length = (loadWord length).toNat-8) (invalid : ¬ ValidFrame (kMsgHeader ++ length ++ rest)) :
      RejectedUnit (kMsgHeader ++ length ++ rest)

/-- Rejected units and one valid frame after them. -/
def Accepts (bytes frame : List UInt8) : Prop :=
  ∃ units : List (List UInt8), (∀ unit ∈ units, RejectedUnit unit) ∧ bytes = units.flatten ++ frame ∧ ValidFrame frame

/-- The length that a message states. -/
def stated (bytes : List UInt8) : Nat := (loadWord (bytes.drop 4)).toNat

def complete (bytes : List UInt8) : Prop := 8 ≤ bytes.length ∧ bytes.length = stated bytes

instance (bytes : List UInt8) : Decidable (complete bytes) := inferInstanceAs (Decidable (_ ∧ _))

/-- What becomes of a message that has just grown. -/
def settle (bytes : List UInt8) : List UInt8 × Option (List UInt8) :=
  if bytes.length = 4 then (if bytes = kMsgHeader then bytes else [],none)
  else if bytes.length = 8 then (if InRange (stated bytes) then bytes else [],none)
  else if complete bytes then (if isDmPacketValid bytes (stated bytes) then (bytes,some bytes) else ([],none))
  else (bytes,none)

/-- A byte that follows a complete message begins the next one. -/
def feed (bytes : List UInt8) (byte : UInt8) : List UInt8 × Option (List UInt8) :=
  settle ((if complete bytes then [] else bytes) ++ [byte])

/-- A message of which nothing has been refused yet. -/
structure Begun (bytes : List UInt8) : Prop where
  header : 4 ≤ bytes.length → bytes.take 4 = kMsgHeader
  length : 8 ≤ bytes.length → InRange (stated bytes) ∧ bytes.length ≤ stated bytes

/-- The length at which the message is looked at next. -/
def bound (bytes : List UInt8) : Nat := if bytes.length < 4 then 4 else if bytes.length < 8 then 8 else stated bytes

theorem begun_nil : Begun [] := ⟨by simp,by simp⟩

theorem loadWord_append {first : List UInt8} (second : List UInt8) (enough : 4 ≤ first.length) :
    loadWord (first ++ second) = loadWord first := by
  have same (i : Nat) (inside : i < 4) : (first ++ second).getD i 0 = first.getD i 0 := by
    rw [List.getD_eq_getElem?_getD,List.getElem?_append_left (by omega),← List.getD_eq_getElem?_getD]
  rw [loadWord,same 0 (by omega),same 1 (by omega),same 2 (by omega),same 3 (by omega),loadWord]

theorem stated_append {bytes : List UInt8} (more : List UInt8) (enough : 8 ≤ bytes.length) :
    stated (bytes ++ more) = stated bytes := by
  rw [stated,stated,List.drop_append_of_le_length (by omega),loadWord_append _ (by simp; omega)]

variable {bytes : List UInt8}

theorem Begun.below (begun : Begun bytes) (open_yet : ¬ complete bytes) : bytes.length < bound bytes := by
  unfold bound
  split
  · assumption
  · split
    · assumption
    · have range := begun.length (by omega)
      exact Nat.lt_of_le_of_ne range.2 (fun same => open_yet ⟨by omega,same⟩)

theorem Begun.header_append (begun : Begun bytes) (more : List UInt8) (enough : 4 ≤ bytes.length) :
    (bytes ++ more).take 4 = kMsgHeader := by
  rw [List.take_append_of_le_length enough]
  exact begun.header enough

theorem Begun.short (begun : Begun bytes) (byte : UInt8) (open_yet : ¬ complete bytes) (early : bytes.length+1 < bound bytes) :
    feed bytes byte = (bytes ++ [byte],none) ∧ Begun (bytes ++ [byte]) ∧ ¬ complete (bytes ++ [byte]) ∧
      bound (bytes ++ [byte]) = bound bytes := by
  have size : (bytes ++ [byte]).length = bytes.length+1 := by simp
  have kept (not_four : bytes.length+1 ≠ 4) (not_eight : bytes.length+1 ≠ 8) (going : ¬ complete (bytes ++ [byte])) :
      feed bytes byte = (bytes ++ [byte],none) := by
    rw [feed,if_neg open_yet,settle,size,if_neg not_four,if_neg not_eight,if_neg going]
  unfold bound at early
  split at early
  · rename_i first
    have going : ¬ complete (bytes ++ [byte]) := fun whole => by have := whole.1; omega
    refine ⟨kept (by omega) (by omega) going,⟨fun enough => by omega,fun enough => by omega⟩,going,?_⟩
    rw [bound,bound,if_pos (by omega),if_pos first]
  · split at early
    · rename_i first second
      have going : ¬ complete (bytes ++ [byte]) := fun whole => by have := whole.1; omega
      refine ⟨kept (by omega) (by omega) going,⟨fun _ => begun.header_append [byte] (by omega),fun enough => by omega⟩,going,?_⟩
      rw [bound,bound,if_neg (by omega),if_pos (by omega),if_neg first,if_pos second]
    · rename_i first second
      have same : stated (bytes ++ [byte]) = stated bytes := stated_append [byte] (by omega)
      have going : ¬ complete (bytes ++ [byte]) := fun whole => by
        have := whole.2
        omega
      refine ⟨kept (by omega) (by omega) going,⟨fun _ => begun.header_append [byte] (by omega),fun _ => ?_⟩,going,?_⟩
      · rw [same,size]
        exact ⟨(begun.length (by omega)).1,by omega⟩
      · rw [bound,bound,if_neg (by omega),if_neg (by omega),if_neg first,if_neg second,same]

theorem Begun.run_short (begun : Begun bytes) (open_yet : ¬ complete bytes) {more : List UInt8}
    (early : bytes.length + more.length < bound bytes) :
    Incremental.run feed bytes more = (bytes ++ more,[]) ∧ Begun (bytes ++ more) ∧ ¬ complete (bytes ++ more) := by
  induction more generalizing bytes with
  | nil => simpa [Incremental.run] using ⟨begun,open_yet⟩
  | cons byte more ih =>
    rw [List.length_cons] at early
    obtain ⟨fed,begun',open',bound'⟩ := begun.short byte open_yet (by omega)
    have later := ih begun' open' (by rw [bound',List.length_append,List.length_singleton]; omega)
    rw [List.append_assoc,List.singleton_append] at later
    simpa only [Incremental.run,fed,Option.toList_none,List.nil_append] using later

/-- Bytes that end at the bound or before it are settled with the message. -/
theorem Begun.call_block (begun : Begun bytes) (open_yet : ¬ complete bytes) {more : List UInt8} (some_more : more ≠ [])
    (within : bytes.length + more.length ≤ bound bytes) :
    Incremental.Call feed bytes more (settle (bytes ++ more)).2 more.length (settle (bytes ++ more)).1 := by
  rcases more.eq_nil_or_concat' with rfl | ⟨init,last,rfl⟩
  · contradiction
  · rw [List.length_append,List.length_singleton] at within
    obtain ⟨quiet,_,open'⟩ := begun.run_short open_yet (show bytes.length + init.length < _ by omega)
    have fed : feed (bytes ++ init) last = settle (bytes ++ (init ++ [last])) := by rw [feed,if_neg open',List.append_assoc]
    generalize settle (bytes ++ (init ++ [last])) = settled at fed
    obtain ⟨next,out⟩ := settled
    cases out with
    | none => exact .all _ _ (Incremental.run_snoc quiet fed)
    | some frame =>
      rw [List.length_append,List.length_singleton]
      exact .stop init last [] _ _ _ quiet fed

theorem inRange_small {length : Nat} (inside : InRange length) : 8 < length := by
  unfold InRange at inside
  omega

theorem length_parts (header : bytes.take 4 = kMsgHeader) (enough : 8 ≤ bytes.length) :
    bytes = kMsgHeader ++ (bytes.drop 4).take 4 ++ bytes.drop 8 ∧ ((bytes.drop 4).take 4).length = 4 ∧
      loadWord ((bytes.drop 4).take 4) = loadWord (bytes.drop 4) := by
  have field : ((bytes.drop 4).take 4).length = 4 := by simp; omega
  have cut : (bytes.drop 4).take 4 ++ bytes.drop 8 = bytes.drop 4 := by
    have split := List.take_append_drop 4 (bytes.drop 4)
    rwa [List.drop_drop] at split
  refine ⟨?_,field,loadWord_take _⟩
  rw [List.append_assoc,cut,← header,List.take_append_drop]

/-- The test of a whole message is the format. -/
theorem isDmPacketValid_iff (header : bytes.take 4 = kMsgHeader) (inside : InRange (stated bytes))
    (whole : bytes.length = stated bytes) :
    isDmPacketValid bytes (stated bytes) = true ↔ ValidFrame bytes := by
  have long := inside.1
  obtain ⟨parts,field,word⟩ := length_parts header (by omega)
  have crc_reads : calculateStm32Crc (bytes.take (stated bytes-8)) (stated bytes-8) = calculateStm32Crc bytes (stated bytes-8) :=
    getStm32Crc_take _ bytes _ _ (Nat.le_refl _)
  have tests : isDmPacketValid bytes (stated bytes) = true ↔
      (bytes.drop (stated bytes-4)).take 4 = kMsgTail ∧
        loadWord (bytes.drop (stated bytes-4-4)) = calculateStm32Crc bytes (stated bytes-8) := by
    rw [isDmPacketValid_tests]
    simp [header,stated]
  have value : (loadWord ((bytes.drop 4).take 4)).toNat = stated bytes := by rw [word,stated]
  rw [tests]
  constructor
  · rintro ⟨tail,crc⟩
    have payload_cut : (bytes.drop 8).take (stated bytes-16) ++ bytes.drop (stated bytes-8) = bytes.drop 8 := by
      have split := List.take_append_drop (stated bytes-16) (bytes.drop 8)
      rwa [List.drop_drop,show 8+(stated bytes-16) = stated bytes-8 by omega] at split
    have crc_cut : (bytes.drop (stated bytes-8)).take 4 ++ bytes.drop (stated bytes-4) = bytes.drop (stated bytes-8) := by
      have split := List.take_append_drop 4 (bytes.drop (stated bytes-8))
      rwa [List.drop_drop,show stated bytes-8+4 = stated bytes-4 by omega] at split
    have last : bytes.drop (stated bytes-4) = kMsgTail := by
      rw [← tail,List.take_of_length_le]
      rw [List.length_drop]
      omega
    have crc_size : ((bytes.drop (stated bytes-8)).take 4).length = 4 := by
      rw [List.length_take,List.length_drop]
      omega
    refine ⟨_,(bytes.drop 8).take (stated bytes-16),(bytes.drop (stated bytes-8)).take 4,field,crc_size,?_,value ▸ inside,?_,?_⟩
    · rw [last] at crc_cut
      rw [List.append_assoc _ _ kMsgTail,crc_cut,List.append_assoc _ _ (bytes.drop (stated bytes-8)),payload_cut]
      exact parts
    · rw [value,List.length_take,List.length_drop]
      omega
    · rw [value,crc_reads,← crc,show stated bytes-4-4 = stated bytes-8 by omega]
      have whole_crc := loadWord_append (bytes.drop (stated bytes-4)) (Nat.le_of_eq crc_size.symm)
      rw [crc_cut] at whole_crc
      exact whole_crc.symm
  · rintro ⟨length,payload,crc,length_size,crc_size,frame,_,payload_size,check⟩
    have read : stated bytes = (loadWord length).toNat := by
      rw [stated,frame,List.append_assoc,List.append_assoc,List.append_assoc,
        List.drop_left' (show kMsgHeader.length = 4 from rfl),
        loadWord_append _ (Nat.le_of_eq length_size.symm)]
    rw [← read] at payload_size check
    have to_tail : bytes.drop (stated bytes-4) = kMsgTail := by
      rw [frame]
      apply List.drop_left'
      simp only [List.length_append,length_size,crc_size,payload_size,← frame,show kMsgHeader.length = 4 from rfl]
      omega
    have to_crc : bytes.drop (stated bytes-4-4) = crc ++ kMsgTail := by
      rw [frame,List.append_assoc _ crc kMsgTail]
      apply List.drop_left'
      rw [← List.append_assoc,← frame]
      simp only [List.length_append,length_size,payload_size,show kMsgHeader.length = 4 from rfl]
      omega
    refine ⟨by rw [to_tail]; rfl,?_⟩
    rw [to_crc,loadWord_append _ (Nat.le_of_eq crc_size.symm),check,crc_reads]

theorem Begun.settles (begun : Begun bytes) {more : List UInt8}
    (reached : bytes.length + more.length = bound bytes) :
    (settle (bytes ++ more) = (bytes ++ more,none) ∧ Begun (bytes ++ more) ∧ ¬ complete (bytes ++ more)) ∨
    (settle (bytes ++ more) = ([],none) ∧ RejectedUnit (bytes ++ more)) ∨
    (settle (bytes ++ more) = (bytes ++ more,some (bytes ++ more)) ∧ Begun (bytes ++ more) ∧ complete (bytes ++ more) ∧
      ValidFrame (bytes ++ more)) := by
  have size : (bytes ++ more).length = bytes.length+more.length := List.length_append
  generalize grown_eq : bytes ++ more = grown at size
  unfold bound at reached
  split at reached
  · have four : grown.length = 4 := by omega
    by_cases header : grown = kMsgHeader
    · exact .inl ⟨by rw [settle,if_pos four,if_pos header],⟨fun _ => by rw [header]; rfl,fun _ => by omega⟩,
        fun whole => by have := whole.1; omega⟩
    · exact .inr (.inl ⟨by rw [settle,if_pos four,if_neg header],.header grown four header⟩)
  · have header : grown.take 4 = kMsgHeader := grown_eq ▸ begun.header_append more (by omega)
    have parts : grown = kMsgHeader ++ grown.drop 4 := by rw [← header,List.take_append_drop]
    split at reached
    · have eight : grown.length = 8 := by omega
      have field : (grown.drop 4).length = 4 := by simp [eight]
      by_cases inside : InRange (stated grown)
      · have long := inRange_small inside
        exact .inl ⟨by rw [settle,if_neg (by omega),if_pos eight,if_pos inside],⟨fun _ => header,fun _ => ⟨inside,by omega⟩⟩,
          fun whole => by have := whole.2; omega⟩
      · refine .inr (.inl ⟨by rw [settle,if_neg (by omega),if_pos eight,if_neg inside],?_⟩)
        rw [parts]
        exact .length _ field inside
    · have same : stated grown = stated bytes := grown_eq ▸ stated_append more (by omega)
      have inside : InRange (stated grown) := same ▸ (begun.length (by omega)).1
      have long := inRange_small inside
      have whole : complete grown := ⟨by omega,by omega⟩
      have settled : settle grown = if isDmPacketValid grown (stated grown) then (grown,some grown) else ([],none) := by
        rw [settle,if_neg (by omega),if_neg (by omega),if_pos whole]
      by_cases valid : isDmPacketValid grown (stated grown) = true
      · refine .inr (.inr ⟨by rw [settled,if_pos valid],⟨fun _ => header,fun _ => ⟨inside,by omega⟩⟩,whole,?_⟩)
        exact (isDmPacketValid_iff header inside whole.2).mp valid
      · refine .inr (.inl ⟨by rw [settled,if_neg valid],?_⟩)
        have invalid : ¬ ValidFrame grown := fun frame => valid ((isDmPacketValid_iff header inside whole.2).mpr frame)
        obtain ⟨parts,field,word⟩ := length_parts header (by omega)
        rw [parts] at invalid ⊢
        have length : (loadWord ((grown.drop 4).take 4)).toNat = stated grown := by rw [word,stated]
        exact .frame _ _ field (length ▸ inside) (by rw [length,List.length_drop]; omega) invalid

theorem Begun.feeds (begun : Begun bytes) (open_yet : ¬ complete bytes) (byte : UInt8) :
    (feed bytes byte = (bytes ++ [byte],none) ∧ Begun (bytes ++ [byte]) ∧ ¬ complete (bytes ++ [byte])) ∨
    (feed bytes byte = ([],none) ∧ RejectedUnit (bytes ++ [byte])) ∨
    (feed bytes byte = (bytes ++ [byte],some (bytes ++ [byte])) ∧ Begun (bytes ++ [byte]) ∧ complete (bytes ++ [byte]) ∧
      ValidFrame (bytes ++ [byte])) := by
  have below := begun.below open_yet
  by_cases early : bytes.length+1 < bound bytes
  · obtain ⟨kept,begun',open',_⟩ := begun.short byte open_yet early
    exact .inl ⟨kept,begun',open'⟩
  · rw [feed,if_neg open_yet]
    exact begun.settles (show bytes.length + [byte].length = bound bytes by simp; omega)

theorem Begun.run_quiet (begun : Begun bytes) (open_yet : ¬ complete bytes) {more next : List UInt8}
    (quiet : Incremental.run feed bytes more = (next,[])) : Begun next ∧ ¬ complete next := by
  induction more generalizing bytes with
  | nil =>
    obtain rfl : bytes = next := congrArg Prod.fst quiet
    exact ⟨begun,open_yet⟩
  | cons byte more ih =>
    rcases begun.feeds open_yet byte with ⟨fed,begun',open'⟩ | ⟨fed,_⟩ | ⟨fed,_⟩
    · exact ih begun' open' (by simpa only [Incremental.run,fed,Option.toList_none,List.nil_append] using quiet)
    · exact ih begun_nil (by decide) (by simpa only [Incremental.run,fed,Option.toList_none,List.nil_append] using quiet)
    · simp [Incremental.run,fed] at quiet

/-- Bytes that lead to no frame are rejected units and the beginning of a message. -/
theorem run_units {input : List UInt8} (quiet : Incremental.run feed [] input = (bytes,[])) :
    ∃ units : List (List UInt8), (∀ unit ∈ units, RejectedUnit unit) ∧ input = units.flatten ++ bytes := by
  induction input using List.reverseRecOn generalizing bytes with
  | nil =>
    obtain rfl : [] = bytes := congrArg Prod.fst quiet
    exact ⟨[],by simp,rfl⟩
  | append_singleton input byte ih =>
    rw [Incremental.run_append] at quiet
    generalize ran : Incremental.run feed [] input = before at quiet
    obtain ⟨middle,outs⟩ := before
    obtain ⟨rfl,none_now⟩ := List.append_eq_nil_iff.mp (congrArg Prod.snd quiet)
    obtain ⟨units,rejected,cut⟩ := ih ran
    obtain ⟨begun,open_yet⟩ := begun_nil.run_quiet (by decide) ran
    have state : (feed middle byte).1 = bytes := congrArg Prod.fst quiet
    rcases begun.feeds open_yet byte with ⟨fed,_⟩ | ⟨fed,unit⟩ | ⟨fed,_⟩
    · refine ⟨units,rejected,?_⟩
      rw [← state,fed,cut,List.append_assoc]
    · refine ⟨units ++ [middle ++ [byte]],fun other member => ?_,?_⟩
      · rcases List.mem_append.mp member with old | new
        · exact rejected other old
        · exact List.mem_singleton.mp new ▸ unit
      · rw [← state,fed,cut]
        simp
    · simp [Incremental.run,fed] at none_now

theorem Begun.run_bound (begun : Begun bytes) (open_yet : ¬ complete bytes) {more : List UInt8}
    (reached : bytes.length + more.length = bound bytes) :
    Incremental.run feed bytes more = ((settle (bytes ++ more)).1,(settle (bytes ++ more)).2.toList) := by
  have below := begun.below open_yet
  have some_more : more ≠ [] := by
    rintro rfl
    simp at reached
    omega
  have ran := (begun.call_block open_yet some_more (Nat.le_of_eq reached)).run.1
  rwa [List.take_length] at ran

theorem run_header : Incremental.run feed [] kMsgHeader = (kMsgHeader,[]) ∧ Begun kMsgHeader ∧ ¬ complete kMsgHeader :=
  ⟨by decide,⟨fun _ => rfl,fun enough => absurd enough (by decide)⟩,by decide⟩

theorem stated_header {length : List UInt8} (rest : List UInt8) (size : length.length = 4) :
    stated (kMsgHeader ++ length ++ rest) = (loadWord length).toNat := by
  rw [stated,List.append_assoc,List.drop_left' (show kMsgHeader.length = 4 from rfl),loadWord_append _ (Nat.le_of_eq size.symm)]

theorem run_length {length : List UInt8} (size : length.length = 4) :
    Incremental.run feed [] (kMsgHeader ++ length) =
      (if InRange (loadWord length).toNat then kMsgHeader ++ length else [],[]) := by
  obtain ⟨ran,begun,open_yet⟩ := run_header
  have eight : (kMsgHeader ++ length).length = 8 := by simp [size,kMsgHeader]
  have value : stated (kMsgHeader ++ length) = (loadWord length).toNat := by simpa using stated_header [] size
  rw [Incremental.run_append,ran,begun.run_bound open_yet (show 4 + length.length = 8 by omega),settle,if_neg (by omega),
    if_pos eight,value]
  rfl

/-- A message of the length it states is a frame, or leaves nothing behind. -/
theorem run_message {length rest : List UInt8} (size : length.length = 4) (inside : InRange (loadWord length).toNat)
    (whole : rest.length = (loadWord length).toNat-8) {message : List UInt8} (parts : message = kMsgHeader ++ length ++ rest) :
    (ValidFrame message → Incremental.run feed [] message = (message,[message]) ∧ complete message) ∧
      (¬ ValidFrame message → Incremental.run feed [] message = ([],[])) := by
  have long := inRange_small inside
  have eight : (kMsgHeader ++ length).length = 8 := by simp [size,kMsgHeader]
  have value : stated (kMsgHeader ++ length) = (loadWord length).toNat := by simpa using stated_header [] size
  have value' : stated message = (loadWord length).toNat := parts ▸ stated_header rest size
  have total : message.length = stated message := by
    rw [value',parts,List.length_append,eight]
    omega
  have header : message.take 4 = kMsgHeader := by rw [parts]; rfl
  have begun : Begun (kMsgHeader ++ length) := ⟨fun _ => rfl,fun _ => value ▸ ⟨inside,by omega⟩⟩
  have open_yet : ¬ complete (kMsgHeader ++ length) := fun done => by
    have := done.2
    omega
  have reached : (kMsgHeader ++ length).length + rest.length = bound (kMsgHeader ++ length) := by
    rw [bound,if_neg (by omega),if_neg (by omega),value]
    omega
  have done : complete message := ⟨by omega,total⟩
  have ran : Incremental.run feed [] message = ((settle message).1,(settle message).2.toList) := by
    have first := run_length size
    rw [if_pos inside] at first
    have last := begun.run_bound open_yet reached
    rw [← parts] at last
    rw [parts,Incremental.run_append,first,← parts]
    simp [last]
  have settled : settle message = if isDmPacketValid message (stated message) then (message,some message) else ([],none) := by
    rw [settle,if_neg (by omega),if_neg (by omega),if_pos done]
  have test := isDmPacketValid_iff header (value' ▸ inside) total
  constructor
  · intro valid
    rw [ran,settled,if_pos (test.mpr valid)]
    exact ⟨rfl,done⟩
  · intro invalid
    rw [ran,settled,if_neg (mt test.mp invalid)]
    rfl

theorem run_unit {unit : List UInt8} (rejected : RejectedUnit unit) : Incremental.run feed [] unit = ([],[]) := by
  cases rejected with
  | header group size other =>
    rw [begun_nil.run_bound (by decide) (show [].length + unit.length = 4 by simpa using size),List.nil_append,settle,
      if_pos size,if_neg other]
    rfl
  | length length size outside => rw [run_length size,if_neg outside]
  | frame length rest size inside whole invalid => exact (run_message size inside whole rfl).2 invalid

theorem run_rejected (units : List (List UInt8)) (rejected : ∀ unit ∈ units, RejectedUnit unit) :
    Incremental.run feed [] units.flatten = ([],[]) := by
  induction units with
  | nil => rfl
  | cons unit units ih =>
    rw [List.flatten_cons,Incremental.run_append,run_unit (rejected unit (by simp)),
      ih (fun other member => rejected other (by simp [member]))]
    rfl

theorem run_frame {frame : List UInt8} (valid : ValidFrame frame) :
    Incremental.run feed [] frame = (frame,[frame]) ∧ complete frame := by
  obtain ⟨length,payload,crc,size,crc_size,parts,inside,payload_size,_⟩ := id valid
  have bounds := inside.1
  have whole : (payload ++ crc ++ kMsgTail).length = (loadWord length).toNat-8 := by
    simp only [List.length_append,crc_size,payload_size,show kMsgTail.length = 4 from rfl]
    omega
  exact (run_message size inside whole (by simp [parts])).1 valid

theorem feed_complete (done : complete bytes) (byte : UInt8) : feed bytes byte = feed [] byte := by
  rw [feed,feed,if_pos done,if_neg (by decide)]

theorem run_complete (done : complete bytes) {more : List UInt8} (some_more : more ≠ []) :
    Incremental.run feed bytes more = Incremental.run feed [] more := by
  obtain ⟨byte,more,rfl⟩ := List.exists_cons_of_ne_nil some_more
  simp only [Incremental.run,feed_complete done byte]

/-- A call that stops has a frame from the bytes it has read last. -/
theorem Begun.call_stops (begun : Begun bytes) (open_yet : ¬ complete bytes) {input next frame : List UInt8} {count : Nat}
    (call : Incremental.Call feed bytes input (some frame) count next) :
    ∃ before middle byte, input.take count = before ++ [byte] ∧ Incremental.run feed bytes before = (middle,[]) ∧
      frame = middle ++ [byte] ∧ next = frame ∧ complete frame ∧ ValidFrame frame := by
  cases call with
  | stop before byte after middle _ _ quiet last =>
    obtain ⟨begun',open'⟩ := begun.run_quiet open_yet quiet
    rcases begun'.feeds open' byte with ⟨kept,_⟩ | ⟨dropped,_⟩ | ⟨done,_,whole,valid⟩
    · simp [kept] at last
    · simp [dropped] at last
    · obtain ⟨rfl,same⟩ := Prod.mk.inj (done.symm.trans last)
      obtain rfl := Option.some.inj same
      exact ⟨before,middle,byte,by rw [List.append_cons,List.take_left' (by simp)],quiet,rfl,rfl,whole,valid⟩

/-- A call that stops has taken rejected units and a frame. -/
theorem call_accepts {input next frame : List UInt8} {count : Nat}
    (call : Incremental.Call feed [] input (some frame) count next) :
    next = frame ∧ complete frame ∧ Accepts (input.take count) frame := by
  obtain ⟨before,middle,byte,taken,quiet,parts,same,whole,valid⟩ := begun_nil.call_stops (by decide) call
  obtain ⟨units,rejected,cut⟩ := run_units quiet
  exact ⟨same,whole,units,rejected,by rw [taken,cut,parts,List.append_assoc],valid⟩

theorem Begun.call_complete (begun : Begun bytes) {input next frame : List UInt8} {count : Nat}
    (call : Incremental.Call feed bytes input (some frame) count next) : next = frame ∧ complete frame := by
  by_cases done : complete bytes
  · obtain ⟨same,whole,_⟩ := call_accepts (call.congr (fun byte => (feed_complete done byte).symm) call.some_left)
    exact ⟨same,whole⟩
  · obtain ⟨_,_,_,_,_,_,same,whole,_⟩ := begun.call_stops done call
    exact ⟨same,whole⟩

/-- A call finds the frame that comes after rejected units, where there is one. -/
theorem accepts_call {input next frame : List UInt8} {count size : Nat} {out : Option (List UInt8)}
    (call : Incremental.Call feed [] input out count next) (inside : size ≤ input.length)
    (accepts : Accepts (input.take size) frame) :
    out = some frame ∧ count = size := by
  obtain ⟨units,rejected,cut,valid⟩ := accepts
  have ran : Incremental.run feed [] (input.take size) = (frame,[frame]) := by
    rw [cut,Incremental.run_append,run_rejected units rejected,(run_frame valid).1]
    rfl
  rcases Nat.lt_trichotomy size count with early | rfl | late
  · have nothing := call.before early
    simp [ran] at nothing
  · have same := ran.symm.trans call.run.1
    cases out with
    | none => simp at same
    | some other => exact ⟨by simpa using (congrArg Prod.snd same).symm,rfl⟩
  · -- the call has found a frame before, and what came after it cannot have been complete
    have split : input.take size = input.take count ++ (input.take size).drop count := by
      have cut := List.take_append_drop count (input.take size)
      rw [List.take_take,Nat.min_eq_left (Nat.le_of_lt late)] at cut
      exact cut.symm
    have some_left : (input.take size).drop count ≠ [] := by
      intro empty
      have := congrArg List.length empty
      simp at this
      omega
    rw [split,Incremental.run_append,call.run.1] at ran
    cases out with
    | none =>
      cases call with
      | all _ _ quiet => omega
    | some other =>
      obtain ⟨rfl,whole,_⟩ := call_accepts call
      rw [run_complete whole some_left] at ran
      have quiet := congrArg Prod.snd ran
      simp only [Option.toList_some,List.singleton_append,List.cons.injEq] at quiet
      have last : Incremental.run feed [] ((input.take size).drop count) = (frame,[]) :=
        Prod.ext (show _ = frame from congrArg Prod.fst ran) quiet.2
      exact absurd (run_frame valid).2 (begun_nil.run_quiet (by decide) last).2

end DmFormat

end LightServer
