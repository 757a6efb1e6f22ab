import LightServer.Base.Memory
import LightServer.DmFormat
import Mathlib.Order.Nat

/-! `DmPacketRead` follows the machine that reads the format a byte at a time. -/
namespace LightServer

open DmFormat

theorem copyTo_length {buf bytes : List UInt8} {pos : Nat} (fits : pos+bytes.length ≤ buf.length) :
    (copyTo buf pos bytes).length = buf.length := Memory.stored_length fits

theorem copyTo_take {buf bytes : List UInt8} {pos : Nat} (fits : pos ≤ buf.length) :
    (copyTo buf pos bytes).take (pos+bytes.length) = buf.take pos ++ bytes := Memory.stored_take fits

namespace DmPacket

/-- The packet has read the beginning `bytes` of a message, or the whole of it. -/
structure Holds (packet : DmPacket) (bytes : List UInt8) : Prop where
  header_size : packet.headerBuf.length = kMsgHeaderBufferSize
  begun : Begun bytes
  pos : packet.pos = bytes.length
  early : bytes.length < 8 → packet.pBuf = none ∧ packet.len = 0 ∧ packet.remainLen = 0 ∧
    packet.headerBuf.take bytes.length = bytes
  late : 8 ≤ bytes.length → packet.len = stated bytes ∧ packet.remainLen = stated bytes-bytes.length ∧
    ∃ buf, packet.pBuf = some buf ∧ buf.length = stated bytes ∧ buf.take bytes.length = bytes

variable {packet : DmPacket} {bytes more : List UInt8}

theorem Holds.reset (holds : Holds packet bytes) : Holds packet.reset [] :=
  ⟨holds.header_size,begun_nil,rfl,fun _ => ⟨rfl,rfl,rfl,rfl⟩,fun enough => absurd enough (by simp)⟩

theorem create_holds (raw : HeaderBuffer) : Holds (create raw) [] :=
  ⟨raw.2,begun_nil,rfl,fun _ => ⟨rfl,rfl,rfl,rfl⟩,fun enough => absurd enough (by simp)⟩

theorem Holds.buffered (holds : Holds packet bytes) : packet.buffered = bytes := by
  rw [DmPacket.buffered,holds.pos]
  by_cases early : bytes.length < 8
  · obtain ⟨none,_,_,same⟩ := holds.early early
    rw [none]
    exact same
  · obtain ⟨_,_,buf,some,_,same⟩ := holds.late (by omega)
    rw [some]
    exact same

theorem Holds.frame (holds : Holds packet bytes) (done : complete bytes) : packet.frame = bytes := by
  obtain ⟨len,_,buf,some,_,same⟩ := holds.late done.1
  rw [DmPacket.frame,len,some,← done.2]
  exact same

private theorem Holds.copied (holds : Holds packet bytes) (early : bytes.length < 8) (fits : (bytes ++ more).length ≤ 8) :
    (copyTo packet.headerBuf packet.pos more).length = 8 ∧
      (copyTo packet.headerBuf packet.pos more).take (bytes ++ more).length = bytes ++ more := by
  have size : packet.headerBuf.length = 8 := holds.header_size
  rw [List.length_append] at fits
  rw [holds.pos]
  refine ⟨(copyTo_length (by omega)).trans size,?_⟩
  rw [List.length_append,copyTo_take (by omega),(holds.early early).2.2.2]

private theorem Holds.kept (holds : Holds packet bytes) (fits : (bytes ++ more).length < 8) (begun : Begun (bytes ++ more)) :
    Holds {packet with headerBuf := copyTo packet.headerBuf packet.pos more, pos := packet.pos+more.length} (bytes ++ more) := by
  have early : bytes.length < 8 := by
    rw [List.length_append] at fits
    omega
  obtain ⟨size,same⟩ := holds.copied early fits.le
  obtain ⟨none,len,remain,_⟩ := holds.early early
  exact ⟨size,begun,by rw [holds.pos,List.length_append],fun _ => ⟨none,len,remain,same⟩,fun enough => by omega⟩

theorem Holds.readHeader (holds : Holds packet bytes) (more : List UInt8) (first : bytes.length < 4)
    (within : (bytes ++ more).length ≤ 4) :
    (settle (bytes ++ more)).2 = none ∧ Holds (readHeader more packet) (settle (bytes ++ more)).1 := by
  obtain ⟨_,same⟩ := holds.copied (show bytes.length < 8 by omega) (show (bytes ++ more).length ≤ 8 by omega)
  have at_pos : packet.pos+more.length = (bytes ++ more).length := by rw [holds.pos,List.length_append]
  simp only [LightServer.readHeader,at_pos,pkgHeaderSize]
  by_cases four : (bytes ++ more).length = 4
  · rw [four] at same
    have taken : (copyTo packet.headerBuf packet.pos more).take kMsgHeader.length = bytes ++ more := same
    rw [settle,if_pos four,taken]
    refine ⟨rfl,?_⟩
    by_cases header : bytes ++ more = kMsgHeader
    · rw [if_neg (by simp [header]),if_pos header]
      exact at_pos ▸ holds.kept (by omega) ⟨fun _ => by rw [header]; rfl,fun enough => by omega⟩
    · rw [if_pos ⟨by omega,header⟩,if_neg header]
      exact ⟨(holds.copied (by omega) (by omega)).1,begun_nil,rfl,fun _ => ⟨rfl,rfl,rfl,rfl⟩,
        fun enough => absurd enough (by simp)⟩
  · rw [settle,if_neg four,if_neg (by omega),if_neg (fun done => by have := done.1; omega),if_neg (by omega)]
    exact ⟨rfl,at_pos ▸ holds.kept (by omega) ⟨fun enough => by omega,fun enough => by omega⟩⟩

theorem Holds.readLength (holds : Holds packet bytes) (more : List UInt8) (first : 4 ≤ bytes.length) (second : bytes.length < 8)
    (within : (bytes ++ more).length ≤ 8) (some_more : more ≠ []) {fresh : Nat → List UInt8} (size : ∀ n, (fresh n).length = n) :
    (settle (bytes ++ more)).2 = none ∧ Holds (readLength fresh more packet) (settle (bytes ++ more)).1 := by
  obtain ⟨header_size,same⟩ := holds.copied second within
  obtain ⟨none,len,remain,_⟩ := holds.early second
  have grows := List.length_pos_iff.mpr some_more
  have at_pos : packet.pos+more.length = (bytes ++ more).length := by rw [holds.pos,List.length_append]
  have header : (bytes ++ more).take 4 = kMsgHeader := holds.begun.header_append more first
  have longer : 4 < (bytes ++ more).length := by
    rw [List.length_append]
    omega
  simp only [LightServer.readLength,at_pos,pkgDataPos,pkgLengthSize,pkgHeaderSize]
  by_cases eight : (bytes ++ more).length = 8
  · have all : copyTo packet.headerBuf packet.pos more = bytes ++ more := by
      rw [← same,eight,List.take_of_length_le header_size.le]
    rw [settle,if_neg (by omega),if_pos eight,if_pos eight,all]
    change _ ∧ Holds (if 16 ≤ stated (bytes ++ more) ∧ stated (bytes ++ more) < kMaxOfMsgSize then _ else _) _
    by_cases inside : InRange (stated (bytes ++ more))
    · rw [if_pos inside,if_pos (show _ ∧ _ from inside)]
      have long := inRange_small inside
      have taken : (bytes ++ more).take 8 = bytes ++ more := List.take_of_length_le eight.le
      have fits : 0+(bytes ++ more).length ≤ (fresh (stated (bytes ++ more))).length := by
        rw [size]
        omega
      refine ⟨rfl,(?_ : Holds _ (bytes ++ more))⟩
      refine ⟨all ▸ header_size,⟨fun _ => header,fun _ => ⟨inside,by omega⟩⟩,rfl,fun short => by omega,
        fun _ => ⟨rfl,?_,_,rfl,?_,?_⟩⟩
      · change stated (bytes ++ more)-8 = _
        omega
      · change (copyTo (fresh (stated (bytes ++ more))) 0 ((bytes ++ more).take 8)).length = _
        rw [taken,copyTo_length fits,size]
      · change (copyTo (fresh (stated (bytes ++ more))) 0 ((bytes ++ more).take 8)).take _ = _
        have copied : (copyTo (fresh (stated (bytes ++ more))) 0 (bytes ++ more)).take (0+(bytes ++ more).length) = _ :=
          copyTo_take (Nat.zero_le _)
        rwa [taken,← Nat.zero_add (bytes ++ more).length]
    · rw [if_neg inside,if_neg (show ¬ (_ ∧ _) from inside)]
      exact ⟨rfl,all ▸ header_size,begun_nil,rfl,fun _ => ⟨rfl,rfl,rfl,rfl⟩,fun enough => absurd enough (by simp)⟩
  · rw [settle,if_neg (by omega),if_neg eight,if_neg (fun done => by have := done.1; omega),if_neg eight]
    exact ⟨rfl,at_pos ▸ holds.kept (by omega) ⟨fun _ => header,fun enough => by omega⟩⟩

theorem Holds.readBody (holds : Holds packet bytes) (more : List UInt8) (enough : 8 ≤ bytes.length)
    (within : (bytes ++ more).length ≤ stated bytes) (some_more : more ≠ []) :
    (LightServer.readBody more packet).1 = (settle (bytes ++ more)).2.isSome ∧
      Holds (LightServer.readBody more packet).2 (settle (bytes ++ more)).1 := by
  obtain ⟨len,remain,buf,some_buf,size,same⟩ := holds.late enough
  have grows := List.length_pos_iff.mpr some_more
  have total : (bytes ++ more).length = bytes.length+more.length := List.length_append
  have value : stated (bytes ++ more) = stated bytes := stated_append more enough
  have inside := (holds.begun.length enough).1
  have at_pos : packet.pos+more.length = (bytes ++ more).length := by rw [holds.pos,List.length_append]
  have left : packet.remainLen-more.length = stated bytes-(bytes ++ more).length := by omega
  have copied : (copyTo buf packet.pos more).take (bytes ++ more).length = bytes ++ more := by
    rw [holds.pos,total,copyTo_take (by omega),same]
  have copied_size : (copyTo buf packet.pos more).length = stated bytes := by
    rw [copyTo_length (by rw [holds.pos]; omega),size]
  have begun : Begun (bytes ++ more) :=
    ⟨fun _ => holds.begun.header_append more (by omega),fun _ => value ▸ ⟨inside,within⟩⟩
  have grown : Holds {packet with pBuf := packet.pBuf.map (fun buf => copyTo buf packet.pos more), pos := packet.pos+more.length,
                                  remainLen := packet.remainLen-more.length} (bytes ++ more) :=
    ⟨holds.header_size,begun,at_pos,fun short => by omega,
      fun _ => ⟨len.trans value.symm,by rw [value,left],_,by rw [some_buf]; rfl,value ▸ copied_size,copied⟩⟩
  have all (whole : (bytes ++ more).length = stated bytes) : copyTo buf packet.pos more = bytes ++ more := by
    rw [← copied,List.take_of_length_le (by omega)]
  have read : (some (copyTo buf packet.pos more)).getD [] = copyTo buf packet.pos more := rfl
  simp only [LightServer.readBody,some_buf,Option.map_some,read] at grown ⊢
  have settled : settle (bytes ++ more) = if complete (bytes ++ more) then
      (if isDmPacketValid (bytes ++ more) (stated (bytes ++ more)) then (bytes ++ more,some (bytes ++ more)) else ([],none))
      else (bytes ++ more,none) := by
    rw [settle,if_neg (by omega),if_neg (by omega)]
  rw [settled]
  by_cases whole : (bytes ++ more).length = stated bytes
  · have done : complete (bytes ++ more) := ⟨by omega,whole.trans value.symm⟩
    have spent : packet.remainLen-more.length = 0 := by omega
    rw [all whole] at grown
    rw [if_pos done,if_pos spent,all whole,len,value]
    by_cases valid : isDmPacketValid (bytes ++ more) (stated bytes) = true
    · rw [if_pos valid,if_pos valid]
      exact ⟨rfl,len ▸ grown⟩
    · rw [if_neg valid,if_neg valid]
      exact ⟨rfl,len ▸ grown.reset⟩
  · rw [if_neg (show ¬ packet.remainLen-more.length = 0 by omega),
      if_neg (fun done : complete (bytes ++ more) => whole (done.2.trans value))]
    exact ⟨rfl,grown⟩

end DmPacket

namespace Reader

variable {alloc : Allocator} {r : Reader} {bytes : List UInt8}

/-- An iteration resets a complete packet, or settles the bytes it takes. -/
theorem iteration_steps (alloc : Allocator) (holds : r.packet.Holds bytes) (left : r.rxBuf ≠ []) :
    (complete bytes ∧ ∃ packet, r.iteration alloc = (false,r.advance r.len packet) ∧ packet.Holds []) ∨
    (¬ complete bytes ∧ ∃ size packet, 0 < size ∧ size ≤ r.rxBuf.length ∧ bytes.length+size ≤ bound bytes ∧
      r.iteration alloc = ((settle (bytes ++ r.rxBuf.take size)).2.isSome,r.advance size packet) ∧
      packet.Holds (settle (bytes ++ r.rxBuf.take size)).1) := by
  have some_left := List.length_pos_iff.mpr left
  have taken {size : Nat} (fits : size ≤ r.rxBuf.length) : (bytes ++ r.rxBuf.take size).length = bytes.length+size := by
    rw [List.length_append,List.length_take,Nat.min_eq_left fits]
  have some_taken {size : Nat} (positive : 0 < size) : r.rxBuf.take size ≠ [] := by
    simp [left]
    omega
  have positive : 0 < r.rxBuf.length := some_left
  rw [iteration]
  simp only [holds.pos,pkgHeaderSize,pkgDataPos,pkgLengthSize]
  by_cases first : bytes.length < 4
  · have fits : min (4-bytes.length) r.rxBuf.length ≤ r.rxBuf.length := Nat.min_le_right _ _
    obtain ⟨none,kept⟩ := holds.readHeader (r.rxBuf.take (min (4-bytes.length) r.rxBuf.length)) first (by rw [taken fits]; omega)
    rw [if_pos first]
    refine .inr ⟨fun done => by have := done.1; omega,_,_,by omega,fits,?_,by rw [none]; rfl,kept⟩
    rw [bound,if_pos first]
    omega
  · rw [if_neg first]
    by_cases second : bytes.length < 8
    · have fits : min (8-bytes.length) r.rxBuf.length ≤ r.rxBuf.length := Nat.min_le_right _ _
      obtain ⟨none,kept⟩ := holds.readLength (r.rxBuf.take (min (8-bytes.length) r.rxBuf.length)) (by omega) second
        (by rw [taken fits]; omega) (some_taken (by omega)) (alloc.size r.rxBuf.length)
      rw [if_pos second]
      refine .inr ⟨fun done => by have := done.1; omega,_,_,by omega,fits,?_,by rw [none]; rfl,kept⟩
      rw [bound,if_neg first,if_pos second]
      omega
    · rw [if_neg second]
      obtain ⟨_,remain,_⟩ := holds.late (by omega)
      have range := holds.begun.length (by omega)
      by_cases done : complete bytes
      · rw [if_neg (by have := done.2; omega)]
        exact .inl ⟨done,_,rfl,holds.reset⟩
      · have below := holds.begun.below done
        have limit : bound bytes = stated bytes := by rw [bound,if_neg first,if_neg second]
        have fits : min r.packet.remainLen r.rxBuf.length ≤ r.rxBuf.length := Nat.min_le_right _ _
        obtain ⟨found,kept⟩ := holds.readBody (r.rxBuf.take (min r.packet.remainLen r.rxBuf.length)) (by omega)
          (by rw [taken fits]; omega) (some_taken (by omega))
        rw [if_pos (by omega)]
        exact .inr ⟨done,_,_,by omega,fits,by omega,by rw [found],kept⟩

/-- The loop ends, and it is a call of the reader of the format. -/
theorem loop_call (alloc : Allocator) (fuel : Nat) (holds : r.packet.Holds bytes) (enough : r.rxBuf.length ≤ fuel)
    (again : complete bytes → r.rxBuf.length < fuel ∧ r.len = 0) :
    ∃ rs last out count next, loop alloc fuel r = some (rs,last) ∧ Incremental.Call feed bytes r.rxBuf out count next ∧
      rs = out.isSome ∧ last.bRLen = r.bRLen+count ∧ last.packet.Holds next := by
  induction fuel generalizing r bytes with
  | zero =>
    have empty : r.rxBuf = [] := List.length_eq_zero_iff.mp (by omega)
    exact ⟨false,r,none,0,bytes,by rw [loop,if_pos empty],empty ▸ .all [] bytes rfl,rfl,rfl,holds⟩
  | succ fuel ih =>
    by_cases left : r.rxBuf = []
    · exact ⟨false,r,none,0,bytes,by rw [loop,if_pos left],left ▸ .all [] bytes rfl,rfl,rfl,holds⟩
    · rcases iteration_steps alloc holds left with
        ⟨done,packet,stepped,kept⟩ | ⟨open_yet,size,packet,positive,fits,within,stepped,kept⟩
      · obtain ⟨shorter,none_taken⟩ := again done
        have same : (r.advance r.len packet).rxBuf = r.rxBuf := by rw [advance,none_taken,List.drop_zero]
        obtain ⟨rs,last,out,count,next,ended,call,found,read,kept'⟩ :=
          ih (r := r.advance r.len packet) kept (by rw [same]; omega) (fun whole => absurd whole (by decide))
        refine ⟨rs,last,out,count,next,?_,?_,found,?_,kept'⟩
        · rw [loop,if_neg left]
          simpa [stepped] using ended
        · exact (same ▸ call).congr (feed_complete done) left
        · rw [read,advance,none_taken,Nat.add_zero]
      · have block_size : (r.rxBuf.take size).length = size := by rw [List.length_take,Nat.min_eq_left fits]
        have call := holds.begun.call_block open_yet (show r.rxBuf.take size ≠ [] by simp [left]; omega) (by omega)
        rw [block_size] at call
        cases found : (settle (bytes ++ r.rxBuf.take size)).2 with
        | some frame =>
          rw [found] at call stepped
          refine ⟨true,r.advance size packet,some frame,size,_,?_,?_,rfl,rfl,kept⟩
          · rw [loop,if_neg left]
            simp [stepped]
          · have extended := call.extend (r.rxBuf.drop size)
            rwa [List.take_append_drop] at extended
        | none =>
          rw [found] at call stepped
          have quiet := call.run.1
          rw [List.take_of_length_le (Nat.le_of_eq block_size)] at quiet
          have open' := (holds.begun.run_quiet open_yet quiet).2
          obtain ⟨rs,last,out,count,next,ended,later,found,read,kept'⟩ :=
            ih (r := r.advance size packet) kept (by simp [advance]; omega) (fun whole => absurd whole open')
          refine ⟨rs,last,out,size+count,next,?_,?_,found,?_,kept'⟩
          · rw [loop,if_neg left]
            simpa [stepped] using ended
          · have whole := Incremental.Call.after quiet later
            rwa [block_size,advance,List.take_append_drop] at whole
          · rw [read,advance,Nat.add_assoc]

end Reader

end LightServer
