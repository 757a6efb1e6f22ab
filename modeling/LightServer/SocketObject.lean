import Mathlib.Data.List.Basic
import Mathlib.Algebra.Order.Ring.Int

/-! Sockets, out packets and socket objects, from `common_definitions.h` and
`socket_object.h`. A `sockaddr` is kept as its bytes; a pointer into a payload is
its offset. Members a constructor leaves unset keep the values of the memory
(`raw`) the object is built in. -/
namespace LightServer

abbrev SOCKET := Int
abbrev FD := Int
abbrev Sockaddr := List UInt8

def invalidFd : FD := -1
def invalidSocket : SOCKET := -1
def socketError : Int := -1

/-- The conversion to `int32_t`. -/
def int32 (value : Int) : Int := value.bmod (2^32)

theorem int32_of_lt {value : Int} (nonneg : 0 ≤ value) (small : value < 2^31) : int32 value = value :=
  Int.bmod_eq_of_le (by omega) (by omega)

structure MsgPacket where
  payload : Option (List UInt8)
  beginPtr : Int
  endPtr : Int
  pkgLength : Int
  pos : Int
  saddr : Sockaddr

namespace MsgPacket

def kMaxSizeOfPacket : Int := 1024*1024*16

/-- The two constructors with a length; only the datagram one is given an address. -/
def build (raw : MsgPacket) (nbytes : Int) (data : List UInt8) (addr : Option Sockaddr) : MsgPacket :=
  if 0 < nbytes ∧ nbytes < kMaxSizeOfPacket then
    {raw with pkgLength := nbytes, payload := some (data.take nbytes.toNat), beginPtr := 0, endPtr := nbytes, pos := 0,
              saddr := addr.getD raw.saddr}
  else {raw with pkgLength := 0, payload := none, pos := 0}

def size (packet : MsgPacket) : Int := int32 (packet.endPtr - packet.beginPtr)

/-- The `length` bytes from `Ptr()` on. -/
def bytesFrom (packet : MsgPacket) (length : Nat) : List UInt8 :=
  ((packet.payload.getD []).drop packet.beginPtr.toNat).take length

/-- The bytes still to be written. -/
def unsent (packet : MsgPacket) : List UInt8 := packet.bytesFrom packet.size.toNat

def reduce (packet : MsgPacket) (length : Int) : MsgPacket :=
  {packet with beginPtr := packet.beginPtr + (if length < packet.size then length else packet.size)}

/-- A packet whose payload was stored and whose pointers lie inside it. -/
structure Stored (packet : MsgPacket) (data : List UInt8) : Prop where
  payload : packet.payload = some data
  lower : 0 ≤ packet.beginPtr
  order : packet.beginPtr ≤ packet.endPtr
  upper : packet.endPtr = data.length
  small : (data.length : Int) < kMaxSizeOfPacket

theorem build_stored (raw : MsgPacket) (data : List UInt8) (addr : Option Sockaddr)
    (some_bytes : 0 < data.length) (small : (data.length : Int) < kMaxSizeOfPacket) :
    Stored (build raw (int32 data.length) data addr) data ∧
      (build raw (int32 data.length) data addr).beginPtr = 0 := by
  have fits : int32 data.length = data.length :=
    int32_of_lt (by omega) (by simp only [kMaxSizeOfPacket] at small; omega)
  have positive : (0 : Int) < data.length := by omega
  rw [fits,build,if_pos ⟨positive,small⟩]
  exact ⟨⟨by simp,le_refl _,positive.le,rfl,small⟩,rfl⟩

variable {packet : MsgPacket} {data : List UInt8}

theorem Stored.size_eq (stored : Stored packet data) : packet.size = packet.endPtr - packet.beginPtr := by
  obtain ⟨_,lower,order,upper,small⟩ := stored
  simp only [kMaxSizeOfPacket] at small
  exact int32_of_lt (by omega) (by omega)

theorem Stored.unsent_eq (stored : Stored packet data) : packet.unsent = data.drop packet.beginPtr.toNat := by
  rw [unsent,bytesFrom,stored.payload,Option.getD_some,List.take_of_length_le]
  have size := stored.size_eq
  have upper := stored.upper
  have lower := stored.lower
  simp only [List.length_drop]
  omega

theorem Stored.unsent_length (stored : Stored packet data) : (packet.unsent.length : Int) = packet.size := by
  have size := stored.size_eq
  have upper := stored.upper
  have lower := stored.lower
  have order := stored.order
  rw [stored.unsent_eq,List.length_drop]
  omega

theorem Stored.reduce (stored : Stored packet data) {length : Int} (nonneg : 0 ≤ length)
    (bound : length ≤ packet.size) :
    Stored (packet.reduce length) data ∧ (packet.reduce length).unsent = packet.unsent.drop length.toNat := by
  have size := stored.size_eq
  have moved : (packet.reduce length).beginPtr = packet.beginPtr + length := by
    simp only [MsgPacket.reduce]
    split <;> omega
  have kept : Stored (packet.reduce length) data :=
    ⟨stored.payload,by have := stored.lower; omega,by change _ ≤ packet.endPtr; omega,stored.upper,stored.small⟩
  refine ⟨kept,?_⟩
  rw [kept.unsent_eq,stored.unsent_eq,moved,List.drop_drop,Int.toNat_add stored.lower nonneg]

end MsgPacket

structure SocketObject where
  socketId : SOCKET
  remoteAddr : Sockaddr
  connectState : Bool
  fValid : Bool
  outPacketsQueue : List MsgPacket
  fReceiveLimit : Bool
  maxRxPacketsPerSecond : UInt32
  maxRxBytesPerSecond : UInt32
  rxPacketsCount : UInt32
  rxBytesCount : UInt32
  lastRxTimeMs : UInt64
  connectTime : Int
  activeTime : Int

namespace SocketObject

/-- Memory in which every member is zero. -/
def blank : SocketObject where
  socketId := 0
  remoteAddr := []
  connectState := false
  fValid := false
  outPacketsQueue := []
  fReceiveLimit := false
  maxRxPacketsPerSecond := 0
  maxRxBytesPerSecond := 0
  rxPacketsCount := 0
  rxBytesCount := 0
  lastRxTimeMs := 0
  connectTime := 0
  activeTime := 0

def kMaxNumOfPackets : Nat := 1000

/-- `SocketObject()`: the limits, the counters and `f_valid_` are not set. -/
def create (raw : SocketObject) : SocketObject :=
  {raw with socketId := invalidSocket, remoteAddr := List.replicate 16 0, connectState := false,
            activeTime := 0, outPacketsQueue := [], fReceiveLimit := false}

def setRemoteAddr (addr : Sockaddr) (object : SocketObject) : SocketObject := {object with remoteAddr := addr}

/-- `PushMsg` and `PushUdpMsg`, which differ in the constructor they use. -/
def push (raw : MsgPacket) (buf : List UInt8) (addr : Option Sockaddr) (object : SocketObject) : Int × SocketObject :=
  if object.outPacketsQueue.length ≥ kMaxNumOfPackets then (socketError,object)
  else (0,{object with
    outPacketsQueue := object.outPacketsQueue ++ [MsgPacket.build raw (int32 buf.length) buf addr]})

def pushMsg (raw : MsgPacket) (buf : List UInt8) : SocketObject → Int × SocketObject := push raw buf none

def pushUdpMsg (raw : MsgPacket) (buf : List UInt8) (addr : Sockaddr) : SocketObject → Int × SocketObject :=
  push raw buf (some addr)

def frontOutPacket (object : SocketObject) : Option MsgPacket := object.outPacketsQueue.head?

def popOutPacket (object : SocketObject) : SocketObject := {object with outPacketsQueue := object.outPacketsQueue.tail}

/-- `Reduce` on the packet `FrontOutPacket` points to. -/
def reduceFront (length : Int) (object : SocketObject) : SocketObject :=
  {object with outPacketsQueue := object.outPacketsQueue.modifyHead (fun packet => packet.reduce length)}

def setSocketId (sock : SOCKET) (object : SocketObject) : SocketObject := {object with socketId := sock}

def setInvalid (object : SocketObject) : SocketObject := {object with fValid := false}

def setValid (object : SocketObject) : SocketObject := {object with fValid := true}

def setConnected (time : Int) (object : SocketObject) : SocketObject :=
  {object with connectState := true, connectTime := time}

def isConnected (object : SocketObject) : Bool := object.connectState

def isReceiveLimit (object : SocketObject) : Bool := object.fReceiveLimit

def setReceivePacketLimit (num : UInt32) (object : SocketObject) : SocketObject :=
  {object with fReceiveLimit := num > 0, maxRxBytesPerSecond := 0,
               maxRxPacketsPerSecond := if num > 0 then num else 0, lastRxTimeMs := 0}

def setReceiveBytesLimit (num : UInt32) (object : SocketObject) : SocketObject :=
  {object with fReceiveLimit := num > 0, maxRxBytesPerSecond := if num > 0 then num else 0,
               maxRxPacketsPerSecond := 0, lastRxTimeMs := 0}

def countReceivedPacket (num : UInt32) (now : UInt64) (object : SocketObject) : SocketObject :=
  let fresh := if now - object.lastRxTimeMs ≥ 1*1000 then {object with rxPacketsCount := 0, lastRxTimeMs := now} else object
  {fresh with rxPacketsCount := fresh.rxPacketsCount + num}

def countReceivedBytes (num : UInt32) (now : UInt64) (object : SocketObject) : SocketObject :=
  let fresh := if now - object.lastRxTimeMs ≥ 1*1000 then {object with rxBytesCount := 0, lastRxTimeMs := now} else object
  {fresh with rxBytesCount := fresh.rxBytesCount + num}

def isReceiveOverflow (object : SocketObject) : Bool :=
  (object.maxRxPacketsPerSecond > 0 && object.rxPacketsCount > object.maxRxPacketsPerSecond) ||
    (object.maxRxBytesPerSecond > 0 && object.rxBytesCount > object.maxRxBytesPerSecond)

end SocketObject

end LightServer
