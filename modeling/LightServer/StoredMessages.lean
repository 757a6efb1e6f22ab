import LightServer.SocketObject

/-! The messages that `PushMsg` and `PushUdpMsg` accept. The constructor of a packet has no way to say
that it did not take the bytes, and the packet is queued all the same. -/
namespace LightServer

namespace SocketObject

/-- The message has been stored whole and has a length a packet may have, or it has been refused. -/
def StoredOrRefused (buf : List UInt8) (object : SocketObject) (pushed : Int × SocketObject) : Prop :=
  (pushed.1 = 0 ∧ 0 < buf.length ∧ (buf.length : Int) < MsgPacket.kMaxSizeOfPacket ∧
    ∃ packet : MsgPacket, pushed.2 = {object with outPacketsQueue := object.outPacketsQueue ++ [packet]} ∧
      packet.size = buf.length ∧ packet.unsent = buf) ∨
  pushed.1 = socketError ∧ pushed.2 = object

/-- The queue is full, or the message has a length a packet may have. -/
def FullOrFits (buf : List UInt8) (object : SocketObject) : Prop :=
  kMaxNumOfPackets ≤ object.outPacketsQueue.length ∨ 0 < buf.length ∧ (buf.length : Int) < MsgPacket.kMaxSizeOfPacket

theorem build_whole (raw : MsgPacket) {buf : List UInt8} (addr : Option Sockaddr) (some_bytes : 0 < buf.length)
    (small : (buf.length : Int) < MsgPacket.kMaxSizeOfPacket) :
    (MsgPacket.build raw (int32 buf.length) buf addr).size = buf.length ∧
      (MsgPacket.build raw (int32 buf.length) buf addr).unsent = buf := by
  obtain ⟨stored,start⟩ := MsgPacket.build_stored raw buf addr some_bytes small
  have all : (MsgPacket.build raw (int32 buf.length) buf addr).unsent = buf := by
    rw [stored.unsent_eq,start]
    rfl
  have length := stored.unsent_length
  rw [all] at length
  exact ⟨length.symm,all⟩

theorem push_stored_iff (raw : MsgPacket) (buf : List UInt8) (addr : Option Sockaddr) (object : SocketObject) :
    StoredOrRefused buf object (object.push raw buf addr) ↔ FullOrFits buf object := by
  unfold push
  split
  · rename_i full
    exact ⟨fun _ => .inl full,fun _ => .inr ⟨rfl,rfl⟩⟩
  · rename_i room
    constructor
    · rintro (⟨_,some_bytes,small,_⟩ | ⟨refused,_⟩)
      · exact .inr ⟨some_bytes,small⟩
      · contradiction
    · rintro (full | ⟨some_bytes,small⟩)
      · exact absurd full room
      · exact .inl ⟨rfl,some_bytes,small,_,rfl,build_whole raw addr some_bytes small⟩

/-- A message is stored whole or refused exactly if the queue is full or a packet can have its length. -/
theorem stored_or_refused_iff (raw : MsgPacket) (buf : List UInt8) (object : SocketObject) :
    (StoredOrRefused buf object (object.pushMsg raw buf) ↔ FullOrFits buf object) ∧
      ∀ addr, (StoredOrRefused buf object (object.pushUdpMsg raw buf addr) ↔ FullOrFits buf object) :=
  ⟨push_stored_iff raw buf none object,fun addr => push_stored_iff raw buf (some addr) object⟩

/-- A message of no bytes is accepted. -/
theorem empty_message_accepted :
    (blank.pushMsg ⟨none,0,0,0,0,[]⟩ []).1 = 0 ∧ ¬ StoredOrRefused [] blank (blank.pushMsg ⟨none,0,0,0,0,[]⟩ []) := by
  refine ⟨rfl,?_⟩
  rintro (⟨_,some_bytes,_⟩ | ⟨refused,_⟩)
  · exact absurd some_bytes (by decide)
  · contradiction

/-- What is queued for a message of any other length: a packet without payload, or one with a part of the bytes. -/
theorem unfit_message_accepted (raw : MsgPacket) (buf : List UInt8) (addr : Option Sockaddr) (object : SocketObject)
    (unfit : ¬ FullOrFits buf object) :
    ∃ packet : MsgPacket, object.push raw buf addr = (0,{object with outPacketsQueue := object.outPacketsQueue ++ [packet]}) ∧
      (packet.payload = none ∨ ∃ count, count < buf.length ∧ packet.payload = some (buf.take count)) := by
  obtain ⟨room,other⟩ := not_or.mp unfit
  refine ⟨_,by rw [push,if_neg room],?_⟩
  unfold MsgPacket.build
  split
  · rename_i fits
    refine .inr ⟨(int32 buf.length).toNat,?_,rfl⟩
    have some_bytes : 0 < buf.length := by
      apply List.length_pos_iff.mpr
      rintro rfl
      exact absurd fits.1 (by decide)
    have large : MsgPacket.kMaxSizeOfPacket ≤ buf.length := not_lt.mp (fun small => other ⟨some_bytes,small⟩)
    omega
  · exact .inl rfl

end SocketObject

end LightServer
