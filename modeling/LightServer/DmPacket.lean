import LightServer.Stm32Crc

/-! The packet reader of `dm_packet.cpp`. `memcpy` into a buffer is `copyTo`, and an iteration
of the loop of `DmPacketRead` is one definition for each of its branches. The counters are
natural numbers: none of them passes `kMaxOfMsgSize`. -/
namespace LightServer

/-- `memcpy(&buf[pos], bytes, bytes.length)`. -/
def copyTo (buf : List UInt8) (pos : Nat) (bytes : List UInt8) : List UInt8 :=
  buf.take pos ++ bytes ++ buf.drop (pos+bytes.length)

/-- `memcpy` of four bytes to an `uint32_t`. -/
def loadWord (p : List UInt8) : UInt32 :=
  (p.getD 0 0).toUInt32 ||| (p.getD 1 0).toUInt32 <<< 8 ||| (p.getD 2 0).toUInt32 <<< 16 ||| (p.getD 3 0).toUInt32 <<< 24

theorem loadWord_take (p : List UInt8) : loadWord (p.take 4) = loadWord p := by
  simp [loadWord,List.getD_eq_getElem?_getD]

def kMsgHeader : List UInt8 := [0x5b,0x44,0x4d,0x2d]
def kMsgTail : List UInt8 := [0x2d,0x4e,0x52,0x5d]

def pkgHeaderSize : Nat := 4
def pkgLengthPos : Nat := pkgHeaderSize
def pkgLengthSize : Nat := 4
def pkgDataPos : Nat := pkgLengthSize+pkgHeaderSize

def kMsgHeaderBufferSize : Nat := 8
def kMaxOfMsgSize : Nat := 8*1024*1024

/-- The memory that `new char[n]` returns where `left` bytes of the input are still to be read. -/
structure Allocator where
  memory (left n : Nat) : List UInt8
  size (left n : Nat) : (memory left n).length = n

/-- Memory that has been cleared. -/
def Allocator.zeroed : Allocator := ⟨fun _ n => List.replicate n 0,fun _ _ => List.length_replicate⟩

abbrev HeaderBuffer := {bytes : List UInt8 // bytes.length = kMsgHeaderBufferSize}

structure DmPacket where
  headerBuf : List UInt8
  pBuf : Option (List UInt8)
  pos : Nat
  len : Nat
  remainLen : Nat

namespace DmPacket

/-- `DmPacket()`, which leaves `header_buf_` as the memory is. -/
def create (raw : HeaderBuffer) : DmPacket where
  headerBuf := raw
  pBuf := none
  pos := 0
  len := 0
  remainLen := 0

def reset (packet : DmPacket) : DmPacket := {packet with pos := 0, len := 0, remainLen := 0, pBuf := none}

/-- The first `len_` bytes of `p_buf_`. -/
def frame (packet : DmPacket) : List UInt8 := (packet.pBuf.getD []).take packet.len

/-- The first `pos_` bytes of the message, which `header_buf_` holds until `p_buf_` is allocated. -/
def buffered (packet : DmPacket) : List UInt8 := (packet.pBuf.getD packet.headerBuf).take packet.pos

end DmPacket

def isDmPacketValid (msgBuf : List UInt8) (msgLen : Nat) : Bool :=
  if msgBuf.take kMsgHeader.length ≠ kMsgHeader then false
  else if (loadWord (msgBuf.drop 4)).toNat ≠ msgLen then false
  else if (msgBuf.drop (msgLen-kMsgTail.length)).take kMsgTail.length ≠ kMsgTail then false
  else if loadWord (msgBuf.drop (msgLen-4-kMsgTail.length)) ≠ calculateStm32Crc msgBuf (msgLen-8) then false
  else true

theorem isDmPacketValid_tests (msgBuf : List UInt8) (msgLen : Nat) :
    isDmPacketValid msgBuf msgLen = true ↔ msgBuf.take 4 = kMsgHeader ∧ (loadWord (msgBuf.drop 4)).toNat = msgLen ∧
      (msgBuf.drop (msgLen-4)).take 4 = kMsgTail ∧ loadWord (msgBuf.drop (msgLen-4-4)) = calculateStm32Crc msgBuf (msgLen-8) := by
  simp [isDmPacketValid,kMsgHeader,kMsgTail]

/-- A frame without payload. -/
def emptyFrame : List UInt8 := [0x5b,0x44,0x4d,0x2d,16,0,0,0,31,142,183,173,0x2d,0x4e,0x52,0x5d]

example : isDmPacketValid emptyFrame 16 = true := by decide +kernel

/-! The branches of the loop, each given the bytes it takes. -/

def readHeader (bytes : List UInt8) (packet : DmPacket) : DmPacket :=
  let copied := {packet with headerBuf := copyTo packet.headerBuf packet.pos bytes, pos := packet.pos+bytes.length}
  if copied.pos ≥ pkgHeaderSize ∧ copied.headerBuf.take kMsgHeader.length ≠ kMsgHeader then copied.reset else copied

/-- `fresh` is the memory that the allocation would return. -/
def readLength (fresh : Nat → List UInt8) (bytes : List UInt8) (packet : DmPacket) : DmPacket :=
  let copied := {packet with headerBuf := copyTo packet.headerBuf packet.pos bytes, pos := packet.pos+bytes.length}
  if copied.pos = pkgDataPos then
    let msgLen := (loadWord (copied.headerBuf.drop pkgLengthPos)).toNat
    if msgLen ≥ 16 ∧ msgLen < kMaxOfMsgSize then
      {copied with pBuf := some (copyTo (fresh msgLen) 0 (copied.headerBuf.take pkgDataPos)), len := msgLen,
                   remainLen := msgLen-pkgDataPos}
    else copied.reset
  else copied

/-- The packet is complete if the first component is true. -/
def readBody (bytes : List UInt8) (packet : DmPacket) : Bool × DmPacket :=
  let copied := {packet with pBuf := packet.pBuf.map (fun buf => copyTo buf packet.pos bytes), pos := packet.pos+bytes.length,
                             remainLen := packet.remainLen-bytes.length}
  if copied.remainLen = 0 then
    if isDmPacketValid (copied.pBuf.getD []) copied.len then (true,copied) else (false,copied.reset)
  else (false,copied)

/-- The variables of `DmPacketRead`; `rxBuf` is what `rx_buf` and `rx_len` delimit. -/
structure Reader where
  packet : DmPacket
  rxBuf : List UInt8
  len : Nat
  bRLen : Nat

namespace Reader

/-- The end of an iteration that took `len` bytes. -/
def advance (len : Nat) (packet : DmPacket) (r : Reader) : Reader := ⟨packet,r.rxBuf.drop len,len,r.bRLen+len⟩

/-- An iteration of the loop; it returns true if the first component is true. -/
def iteration (alloc : Allocator) (r : Reader) : Bool × Reader :=
  let packet := r.packet
  if packet.pos < pkgHeaderSize then
    let len := min (pkgHeaderSize-packet.pos) r.rxBuf.length
    (false,r.advance len (readHeader (r.rxBuf.take len) packet))
  else if packet.pos < pkgDataPos then
    let len := min (pkgDataPos-packet.pos) r.rxBuf.length
    (false,r.advance len (readLength (alloc.memory r.rxBuf.length) (r.rxBuf.take len) packet))
  else if packet.remainLen ≠ 0 then
    let len := min packet.remainLen r.rxBuf.length
    let done := readBody (r.rxBuf.take len) packet
    (done.1,r.advance len done.2)
  else (false,r.advance r.len packet.reset)

/-- The loop for at most `fuel` iterations; `none` if it has not ended by then. -/
def loop (alloc : Allocator) : Nat → Reader → Option (Bool × Reader)
  | 0, r => if r.rxBuf = [] then some (false,r) else none
  | fuel+1, r =>
    if r.rxBuf = [] then some (false,r)
    else
      let next := r.iteration alloc
      if next.1 then some next else loop alloc fuel next.2

end Reader

structure ReadResult where
  rs : Bool
  bRLen : Nat
  packet : DmPacket

/-- `DmPacketRead` on a packet that is not null: each iteration takes a byte, except one that
resets the packet that the last call completed. -/
def dmPacketRead (alloc : Allocator) (packet : DmPacket) (buf : List UInt8) : Option ReadResult :=
  (Reader.loop alloc (buf.length+1) ⟨packet,buf,0,0⟩).map (fun done => ⟨done.1,done.2.bRLen,done.2.packet⟩)

end LightServer
