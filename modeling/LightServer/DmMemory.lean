import LightServer.Base.Memory
import LightServer.DmReads

/-! The memory that `DmPacketRead` reads and writes. The functions of `dm_packet.cpp` are stated again
with every access to a buffer checked, `rx_buf` as an offset into the input. -/
namespace LightServer

open DmFormat

/-- Where a packet is between two calls: its header is not complete, or `p_buf_` has room for the message. -/
def DmPacket.Placed (packet : DmPacket) : Prop :=
  packet.pos < 8 ∧ packet.len = 0 ∧ packet.remainLen = 0 ∧ packet.pBuf = none ∨
  ∃ buf, packet.pBuf = some buf ∧ buf.length = packet.len ∧ 16 ≤ packet.len ∧ packet.len < kMaxOfMsgSize ∧
    8 ≤ packet.pos ∧ packet.pos+packet.remainLen = packet.len

theorem DmPacket.Holds.placed {packet : DmPacket} {bytes : List UInt8} (holds : packet.Holds bytes) : packet.Placed := by
  by_cases early : bytes.length < 8
  · obtain ⟨none,len,remain,_⟩ := holds.early early
    exact .inl ⟨holds.pos ▸ early,len,remain,none⟩
  · obtain ⟨len,remain,buf,some_buf,size,_⟩ := holds.late (by omega)
    obtain ⟨⟨long,small⟩,within⟩ := holds.begun.length (by omega)
    have position := holds.pos
    exact .inr ⟨buf,some_buf,by omega,by omega,by omega,by omega,by omega⟩

namespace Checked

open Memory

/-- The `while (loop)` from the offset `p` of `s` on. -/
def crcLoop (s : List UInt8) : Nat → UInt32 → Nat → Except Fault (UInt32 × Nat)
  | 0, crc, p => .ok (crc,p)
  | loop+1, crc, p => do
    let group ← read s p 4
    crcLoop s loop (crcGroup crc group) (p+4)

def getStm32Crc (crc : UInt32) (s : List UInt8) (len : Nat) : Except Fault UInt32 := do
  let (crc,p) ← crcLoop s (len/4) crc 0
  let remain := len % 4
  if remain = 0 then return crc
  let buf ← read s p remain
  return crcGroup crc (buf ++ List.replicate (4-remain) 0)

def isDmPacketValid (msgBuf : List UInt8) (msgLen : Nat) : Except Fault Bool := do
  let header ← read msgBuf 0 kMsgHeader.length
  if header ≠ kMsgHeader then return false
  let actualLen ← read msgBuf 4 4
  if (loadWord actualLen).toNat ≠ msgLen then return false
  let tailPos ← minus msgLen kMsgTail.length
  let tail ← read msgBuf tailPos kMsgTail.length
  if tail ≠ kMsgTail then return false
  let crcEnd ← minus msgLen 4
  let crcPos ← minus crcEnd kMsgTail.length
  let msgCrc ← read msgBuf crcPos 4
  let covered ← minus msgLen 8
  let actualCrc ← getStm32Crc 0xffffffff msgBuf covered
  if loadWord msgCrc ≠ actualCrc then return false
  return true

def readHeader (bytes : List UInt8) (packet : DmPacket) : Except Fault DmPacket := do
  let headerBuf ← write packet.headerBuf packet.pos bytes
  let copied := {packet with headerBuf := headerBuf, pos := packet.pos+bytes.length}
  if copied.pos ≥ pkgHeaderSize then
    let header ← read headerBuf 0 kMsgHeader.length
    if header ≠ kMsgHeader then return copied.reset
  return copied

def readLength (fresh : Nat → List UInt8) (bytes : List UInt8) (packet : DmPacket) : Except Fault DmPacket := do
  let headerBuf ← write packet.headerBuf packet.pos bytes
  let copied := {packet with headerBuf := headerBuf, pos := packet.pos+bytes.length}
  if copied.pos = pkgDataPos then
    let length ← read headerBuf pkgLengthPos pkgLengthSize
    let msgLen := (loadWord length).toNat
    if msgLen ≥ 16 ∧ msgLen < kMaxOfMsgSize then
      let header ← read headerBuf 0 pkgDataPos
      let pBuf ← write (fresh msgLen) 0 header
      let remainLen ← minus msgLen pkgDataPos
      return {copied with pBuf := some pBuf, len := msgLen, remainLen := remainLen}
    else return copied.reset
  else return copied

def readBody (bytes : List UInt8) (packet : DmPacket) : Except Fault (Bool × DmPacket) := do
  let buf ← deref packet.pBuf
  let pBuf ← write buf packet.pos bytes
  let remainLen ← minus packet.remainLen bytes.length
  let copied := {packet with pBuf := some pBuf, pos := packet.pos+bytes.length, remainLen := remainLen}
  if remainLen = 0 then
    let valid ← isDmPacketValid pBuf copied.len
    return if valid then (true,copied) else (false,copied.reset)
  else return (false,copied)

/-- The variables of `DmPacketRead`. -/
structure Cursor where
  packet : DmPacket
  rxBuf : Nat
  rxLen : Nat
  len : Nat
  bRLen : Nat

/-- The end of an iteration that took `len` bytes. -/
def Cursor.advance (len : Nat) (packet : DmPacket) (c : Cursor) : Except Fault Cursor := do
  let rxLen ← minus c.rxLen len
  return ⟨packet,c.rxBuf+len,rxLen,len,c.bRLen+len⟩

def iteration (alloc : Allocator) (input : List UInt8) (c : Cursor) : Except Fault (Bool × Cursor) := do
  if c.packet.pos < pkgHeaderSize then
    let room ← minus pkgHeaderSize c.packet.pos
    let len := min room c.rxLen
    let bytes ← read input c.rxBuf len
    let packet ← readHeader bytes c.packet
    let next ← c.advance len packet
    return (false,next)
  else if c.packet.pos < pkgDataPos then
    let room ← minus pkgDataPos c.packet.pos
    let len := min room c.rxLen
    let bytes ← read input c.rxBuf len
    let packet ← readLength (alloc.memory c.rxLen) bytes c.packet
    let next ← c.advance len packet
    return (false,next)
  else if c.packet.remainLen ≠ 0 then
    let len := min c.packet.remainLen c.rxLen
    let bytes ← read input c.rxBuf len
    let (done,packet) ← readBody bytes c.packet
    if done then return (true,{c with packet := packet, len := len, bRLen := c.bRLen+len})
    let next ← c.advance len packet
    return (false,next)
  else
    let next ← c.advance c.len c.packet.reset
    return (false,next)

def loop (alloc : Allocator) (input : List UInt8) : Nat → Cursor → Except Fault (Option (Bool × Cursor))
  | 0, c => .ok (if c.rxLen = 0 then some (false,c) else none)
  | fuel+1, c => do
    if c.rxLen = 0 then return some (false,c)
    let next ← iteration alloc input c
    if next.1 then return some next else loop alloc input fuel next.2

/-- `DmPacketRead` with every access checked. -/
def dmPacketRead (alloc : Allocator) (packet : DmPacket) (buf : List UInt8) : Except Fault (Option ReadResult) := do
  let done ← loop alloc buf (buf.length+1) ⟨packet,0,buf.length,0,0⟩
  return done.map (fun done => ⟨done.1,done.2.bRLen,done.2.packet⟩)

theorem crcLoop_ok (s : List UInt8) (loop : Nat) (crc : UInt32) (p : Nat) (inside : p+4*loop ≤ s.length) :
    crcLoop s loop crc p = .ok ((LightServer.crcLoop loop crc (s.drop p)).1,p+4*loop) ∧
      (LightServer.crcLoop loop crc (s.drop p)).2 = s.drop (p+4*loop) := by
  induction loop generalizing crc p with
  | zero => exact ⟨rfl,rfl⟩
  | succ loop ih =>
    obtain ⟨looped,rest⟩ := ih (crcGroup crc (s.drop p)) (p+4) (by omega)
    rw [LightServer.crcLoop,List.drop_drop,show p+4*(loop+1) = p+4+4*loop by omega]
    refine ⟨?_,rest⟩
    rw [crcLoop,read_ok (by omega),ok_bind,crcGroup_take _ _ (Nat.le_refl 4)]
    exact looped

theorem getStm32Crc_ok (crc : UInt32) {s : List UInt8} {len : Nat} (inside : len ≤ s.length) :
    getStm32Crc crc s len = .ok (LightServer.getStm32Crc crc s len) := by
  obtain ⟨looped,rest⟩ := crcLoop_ok s (len/4) crc 0 (by omega)
  rw [List.drop_zero] at looped rest
  rw [getStm32Crc,looped,ok_bind]
  simp only [LightServer.getStm32Crc,rest]
  split
  · rfl
  · rw [read_ok (by omega),ok_bind]
    rfl

/-- A buffer of the length a message states is enough for the test of the message. -/
theorem isDmPacketValid_ok {msgBuf : List UInt8} {msgLen : Nat} (size : msgBuf.length = msgLen) (long : 16 ≤ msgLen) :
    isDmPacketValid msgBuf msgLen = .ok (LightServer.isDmPacketValid msgBuf msgLen) := by
  have four : kMsgHeader.length = 4 := rfl
  have four' : kMsgTail.length = 4 := rfl
  rw [isDmPacketValid,four,four',read_start (by omega),ok_bind,read_ok (by omega),ok_bind,minus_ok (by omega),ok_bind,
    read_ok (by omega),ok_bind,ok_bind,minus_ok (by omega),ok_bind,read_ok (by omega),ok_bind,minus_ok (by omega),ok_bind,
    getStm32Crc_ok _ (by omega),ok_bind,loadWord_take,loadWord_take,LightServer.isDmPacketValid,four,four',← calculateStm32Crc]
  split_ifs <;> rfl

example : (isDmPacketValid (emptyFrame.take 15) 16).isOk = false := by decide +kernel

theorem stored_copyTo (buf : List UInt8) (pos : Nat) (bytes : List UInt8) : stored buf pos bytes = copyTo buf pos bytes := rfl

variable {packet : DmPacket} {bytes : List UInt8}

theorem readHeader_ok (size : packet.headerBuf.length = 8) (fits : packet.pos+bytes.length ≤ 8) :
    readHeader bytes packet = .ok (LightServer.readHeader bytes packet) := by
  have copied : (copyTo packet.headerBuf packet.pos bytes).length = 8 := by rw [copyTo_length (by omega),size]
  have four : kMsgHeader.length = 4 := rfl
  rw [readHeader,write_ok (by omega),ok_bind,stored_copyTo,read_start (by omega)]
  simp only [ok_bind,LightServer.readHeader]
  by_cases enough : packet.pos+bytes.length ≥ pkgHeaderSize
  · by_cases header : (copyTo packet.headerBuf packet.pos bytes).take kMsgHeader.length ≠ kMsgHeader
    · rw [if_pos enough,if_pos header,if_pos ⟨enough,header⟩]
      rfl
    · rw [if_pos enough,if_neg header,if_neg (fun both => header both.2)]
      rfl
  · rw [if_neg enough,if_neg (fun both => enough both.1)]
    rfl

theorem readLength_ok (size : packet.headerBuf.length = 8) (fits : packet.pos+bytes.length ≤ 8)
    {fresh : Nat → List UInt8} (fresh_size : ∀ n, (fresh n).length = n) :
    readLength fresh bytes packet = .ok (LightServer.readLength fresh bytes packet) := by
  have copied : (copyTo packet.headerBuf packet.pos bytes).length = 8 := by rw [copyTo_length (by omega),size]
  have four : pkgLengthSize = 4 := rfl
  have four' : pkgLengthPos = 4 := rfl
  have eight : pkgDataPos = 8 := rfl
  rw [readLength,write_ok (by omega),ok_bind,stored_copyTo,read_ok (by omega)]
  simp only [ok_bind,LightServer.readLength,four,loadWord_take]
  split
  · split
    · rename_i inside
      have room : 0+((copyTo packet.headerBuf packet.pos bytes).take pkgDataPos).length ≤
          (fresh (loadWord ((copyTo packet.headerBuf packet.pos bytes).drop pkgLengthPos)).toNat).length := by
        rw [fresh_size,List.length_take]
        omega
      rw [read_start (by omega),ok_bind,write_ok room,ok_bind,minus_ok (by omega),ok_bind,stored_copyTo]
      rfl
    · rfl
  · rfl

theorem readBody_ok {buf : List UInt8} (some_buf : packet.pBuf = some buf) (size : buf.length = packet.len)
    (long : 16 ≤ packet.len) (position : packet.pos+packet.remainLen = packet.len) (fits : bytes.length ≤ packet.remainLen) :
    readBody bytes packet = .ok (LightServer.readBody bytes packet) := by
  have copied : (copyTo buf packet.pos bytes).length = packet.len := by rw [copyTo_length (by omega),size]
  rw [readBody,some_buf,deref,Option.elim,ok_bind,write_ok (by omega),ok_bind,stored_copyTo,minus_ok fits]
  simp only [ok_bind,LightServer.readBody,some_buf,Option.map_some,isDmPacketValid_ok copied long]
  split
  · change Except.ok _ = _
    congr
  · rfl

/-- A state of the checked loop and a state of the loop at the same place. -/
structure Follows (input : List UInt8) (c : Cursor) (r : Reader) : Prop where
  packet : c.packet = r.packet
  rest : r.rxBuf = input.drop c.rxBuf
  left : c.rxBuf+c.rxLen = input.length
  len : c.len = r.len
  bRLen : c.bRLen = r.bRLen

variable {alloc : Allocator} {input : List UInt8} {c : Cursor} {r : Reader} {size : Nat}

theorem Follows.rxLen (follows : Follows input c r) : r.rxBuf.length = c.rxLen := by
  have left := follows.left
  rw [follows.rest,List.length_drop]
  omega

theorem Follows.read (follows : Follows input c r) (fits : size ≤ c.rxLen) :
    Memory.read input c.rxBuf size = .ok (r.rxBuf.take size) := by
  have left := follows.left
  rw [read_ok (by omega),follows.rest]

theorem Follows.advance (follows : Follows input c r) (fits : size ≤ c.rxLen) (packet : DmPacket) :
    ∃ next, c.advance size packet = .ok next ∧ Follows input next (r.advance size packet) := by
  have left := follows.left
  refine ⟨⟨packet,c.rxBuf+size,c.rxLen-size,size,c.bRLen+size⟩,by rw [Cursor.advance,minus_ok fits]; rfl,rfl,?_,?_,rfl,?_⟩
  · change r.rxBuf.drop size = _
    rw [follows.rest,List.drop_drop]
  · change c.rxBuf+size+(c.rxLen-size) = _
    omega
  · change c.bRLen+size = r.bRLen+size
    rw [follows.bRLen]

/-- The checked iteration does not fail, and it does what the iteration of the model does. -/
def Agrees (alloc : Allocator) (input : List UInt8) (c : Cursor) (r : Reader) : Prop :=
  ∃ next, iteration alloc input c = .ok next ∧ next.1 = (r.iteration alloc).1 ∧
    next.2.packet = (r.iteration alloc).2.packet ∧ next.2.bRLen = (r.iteration alloc).2.bRLen ∧
    (next.1 = false → Follows input next.2 (r.iteration alloc).2)

/-- An iteration that goes on to the end of the loop body. -/
theorem Follows.agrees (follows : Follows input c r) (fits : size ≤ c.rxLen) {packet : DmPacket}
    (checked : iteration alloc input c = (c.advance size packet >>= fun next => pure (false,next)))
    (stepped : r.iteration alloc = (false,r.advance size packet)) : Agrees alloc input c r := by
  obtain ⟨next,advanced,follows'⟩ := follows.advance fits packet
  rw [advanced] at checked
  rw [Agrees,stepped]
  exact ⟨(false,next),checked,rfl,follows'.packet,follows'.bRLen,fun _ => follows'⟩

theorem Follows.iteration (alloc : Allocator) (follows : Follows input c r) (holds : r.packet.Holds bytes) (again : complete bytes → r.len = 0) :
    Agrees alloc input c r := by
  have length := follows.rxLen
  have header_size : r.packet.headerBuf.length = 8 := holds.header_size
  have taken {size : Nat} (fits : size ≤ c.rxLen) : (r.rxBuf.take size).length = size := by
    rw [List.length_take]
    omega
  have four : pkgHeaderSize = 4 := rfl
  have eight : pkgDataPos = 8 := rfl
  by_cases first : r.packet.pos < pkgHeaderSize
  · have fits : min (pkgHeaderSize-r.packet.pos) c.rxLen ≤ c.rxLen := Nat.min_le_right _ _
    have stepped : r.iteration alloc = (false,r.advance (min (pkgHeaderSize-r.packet.pos) c.rxLen)
        (LightServer.readHeader (r.rxBuf.take (min (pkgHeaderSize-r.packet.pos) c.rxLen)) r.packet)) := by
      rw [Reader.iteration,length]
      exact if_pos first
    apply follows.agrees fits _ stepped
    rw [Checked.iteration,follows.packet,if_pos first,minus_ok (by omega)]
    simp only [ok_bind,follows.read fits,readHeader_ok header_size (show _ + _ ≤ 8 by rw [taken fits]; omega)]
  · by_cases second : r.packet.pos < pkgDataPos
    · have fits : min (pkgDataPos-r.packet.pos) c.rxLen ≤ c.rxLen := Nat.min_le_right _ _
      have stepped : r.iteration alloc = (false,r.advance (min (pkgDataPos-r.packet.pos) c.rxLen)
          (LightServer.readLength (alloc.memory c.rxLen) (r.rxBuf.take (min (pkgDataPos-r.packet.pos) c.rxLen)) r.packet)) := by
        rw [Reader.iteration,length]
        exact (if_neg first).trans (if_pos second)
      apply follows.agrees fits _ stepped
      rw [Checked.iteration,follows.packet,if_neg first,if_pos second,minus_ok (by omega)]
      simp only [ok_bind,follows.read fits,
        readLength_ok header_size (show _ + _ ≤ 8 by rw [taken fits]; omega) (alloc.size c.rxLen)]
    · by_cases some_left : r.packet.remainLen ≠ 0
      · have fits : min r.packet.remainLen c.rxLen ≤ c.rxLen := Nat.min_le_right _ _
        obtain ⟨early,_⟩ | ⟨buf,some_buf,size,long,_,_,position⟩ := holds.placed
        · omega
        · have checked := readBody_ok some_buf size long position
            (show (r.rxBuf.take (min r.packet.remainLen c.rxLen)).length ≤ _ by rw [taken fits]; omega)
          have stepped : r.iteration alloc = ((LightServer.readBody (r.rxBuf.take (min r.packet.remainLen c.rxLen)) r.packet).1,
              r.advance (min r.packet.remainLen c.rxLen)
                (LightServer.readBody (r.rxBuf.take (min r.packet.remainLen c.rxLen)) r.packet).2) := by
            rw [Reader.iteration,length]
            exact (if_neg first).trans ((if_neg second).trans (if_pos some_left))
          generalize LightServer.readBody (r.rxBuf.take (min r.packet.remainLen c.rxLen)) r.packet = done at checked stepped
          obtain ⟨found,packet⟩ := done
          cases found with
          | false =>
            apply follows.agrees fits _ stepped
            rw [Checked.iteration,follows.packet,if_neg first,if_neg second,if_pos some_left]
            simp only [follows.read fits,ok_bind,checked]
            rfl
          | true =>
            rw [Agrees,stepped,Checked.iteration,follows.packet,if_neg first,if_neg second,if_pos some_left]
            simp only [follows.read fits,ok_bind,checked]
            refine ⟨_,rfl,rfl,rfl,?_,fun none => absurd none (by simp)⟩
            change c.bRLen+_ = r.bRLen+_
            rw [follows.bRLen]
      · have late : pkgDataPos ≤ r.packet.pos ∧ r.packet.remainLen = 0 := ⟨by omega,by omega⟩
        have none_taken : c.len = 0 := follows.len.trans (again (holds.completed_iff.mp late))
        have fits : c.len ≤ c.rxLen := by omega
        apply follows.agrees fits
        · rw [Checked.iteration,follows.packet,if_neg first,if_neg second,if_neg some_left]
        · rw [Reader.iteration_completed late,follows.len]

/-- The loop does not fail, and it does what the loop of the model does. -/
theorem Follows.loop (alloc : Allocator) (fuel : Nat) (follows : Follows input c r) (holds : r.packet.Holds bytes)
    (again : complete bytes → r.len = 0) :
    ∃ done, Checked.loop alloc input fuel c = .ok done ∧
      done.map (fun done => (⟨done.1,done.2.bRLen,done.2.packet⟩ : ReadResult)) =
        (Reader.loop alloc fuel r).map (fun done => ⟨done.1,done.2.bRLen,done.2.packet⟩) := by
  have spent_iff : c.rxLen = 0 ↔ r.rxBuf = [] := by rw [← follows.rxLen,List.length_eq_zero_iff]
  induction fuel generalizing c r bytes with
  | zero =>
    refine ⟨_,rfl,?_⟩
    rw [Reader.loop]
    by_cases spent : r.rxBuf = []
    · rw [if_pos (spent_iff.mpr spent),if_pos spent,Option.map_some,Option.map_some,follows.packet,follows.bRLen]
    · rw [if_neg (mt spent_iff.mp spent),if_neg spent,Option.map_none,Option.map_none]
  | succ fuel ih =>
    by_cases spent : r.rxBuf = []
    · refine ⟨some (false,c),by rw [Checked.loop,if_pos (spent_iff.mpr spent)]; rfl,?_⟩
      rw [Reader.loop,if_pos spent,Option.map_some,Option.map_some,follows.packet,follows.bRLen]
    · obtain ⟨next,checked,found,packet,bRLen,follows'⟩ := follows.iteration alloc holds again
      rw [Checked.loop,if_neg (mt spent_iff.mp spent),checked,Reader.loop,if_neg spent]
      simp only [ok_bind,← found]
      cases stopped : next.1 with
      | true => exact ⟨some next,rfl,by simp [packet,bRLen,stopped,← found]⟩
      | false =>
        obtain ⟨bytes',holds',open'⟩ := Reader.iteration_open alloc holds spent (found ▸ stopped)
        have follows'' := follows' stopped
        exact ih follows'' holds' (fun done => absurd done open') (by rw [← follows''.rxLen,List.length_eq_zero_iff])

end Checked

/-- A packet is well placed between calls, and no access that a call makes fails: the call returns, as it
does with its accesses unchecked. -/
theorem dmPacketRead_inside {packet : DmPacket} (reachable : packet.Reachable) :
    packet.headerBuf.length = kMsgHeaderBufferSize ∧ packet.Placed ∧ ∀ (alloc : Allocator) (buf : List UInt8),
      ∃ result, Checked.dmPacketRead alloc packet buf = .ok (some result) ∧ dmPacketRead alloc packet buf = some result := by
  obtain ⟨bytes,holds⟩ := reachable.holds
  refine ⟨holds.header_size,holds.placed,fun alloc buf => ?_⟩
  obtain ⟨result,_,_,returned,_⟩ := dmPacketRead_call alloc holds buf
  have follows : Checked.Follows buf ⟨packet,0,buf.length,0,0⟩ ⟨packet,buf,0,0⟩ := ⟨rfl,rfl,Nat.zero_add _,rfl,rfl⟩
  obtain ⟨done,checked,same⟩ := follows.loop alloc (buf.length+1) holds (fun _ => rfl)
  refine ⟨result,?_,returned⟩
  rw [Checked.dmPacketRead,checked,Memory.ok_bind,same]
  exact congrArg Except.ok returned

/-- A packet in the middle of its length. -/
theorem half_length_inside : ∃ first second, dmPacketRead .zeroed (.create ⟨List.replicate 8 0,rfl⟩) (emptyFrame.take 6) = some first ∧
    Checked.dmPacketRead .zeroed first.packet (emptyFrame.drop 6) = .ok (some second) := by
  obtain ⟨_,_,first_call⟩ := dmPacketRead_inside (.create ⟨List.replicate 8 0,rfl⟩)
  obtain ⟨first,_,returned⟩ := first_call .zeroed (emptyFrame.take 6)
  obtain ⟨_,_,second_call⟩ := dmPacketRead_inside (.read _ _ _ _ (.create _) returned)
  obtain ⟨second,checked,_⟩ := second_call .zeroed (emptyFrame.drop 6)
  exact ⟨first,second,returned,checked⟩

end LightServer
