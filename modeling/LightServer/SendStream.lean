import LightServer.Base.Channel
import LightServer.Accept

/-! The out packets of a socket object as a first-in first-out channel of bytes: `Send`
pushes a packet, and `HandleSend` writes the front packet in parts and pops it. -/
namespace LightServer

namespace Obs

def sending : Obs → Option Obs
  | .queued p buf addr => some (.queued p buf addr)
  | .written p buf addr => some (.written p buf addr)
  | _ => none

def queuedTo (p : Ptr) : Obs → Option (List UInt8)
  | .queued q buf _ => if q = p then some buf else none
  | _ => none

def writtenTo (p : Ptr) : Obs → Option (List UInt8)
  | .written q buf _ => if q = p then some buf else none
  | _ => none

end Obs

namespace Host

variable {h h' next : Host}

/-- The payloads of the sends to the object that returned 0. -/
def accepted (p : Ptr) (h : Host) : List UInt8 := (h.log.filterMap (Obs.queuedTo p)).flatten

/-- The bytes that `write` took for the object. -/
def written (p : Ptr) (h : Host) : List UInt8 := (h.log.filterMap (Obs.writtenTo p)).flatten

def unsent (object : SocketObject) : List (List UInt8) := object.outPacketsQueue.map MsgPacket.unsent

def channel (p : Ptr) (h : Host) : Option (Channel.State UInt8) :=
  (h.heap p).map (fun object => ⟨h.accepted p,h.written p,unsent object⟩)

/-- No packet is pushed, written to or popped; objects may be made and deleted. -/
structure KeepsPackets (h h' : Host) : Prop where
  objects : ∀ p object', h'.heap p = some object' →
    (∃ object, h.heap p = some object ∧ object'.outPacketsQueue = object.outPacketsQueue) ∨
      h.nextPtr ≤ p ∧ p < h'.nextPtr ∧ object'.outPacketsQueue = []
  log : h'.log.filterMap Obs.sending = h.log.filterMap Obs.sending
  nextPtr : h.nextPtr ≤ h'.nextPtr
  kind : h'.kind = h.kind

namespace KeepsPackets

theorem of_same (heap : h'.heap = h.heap) (log : h'.log.filterMap Obs.sending = h.log.filterMap Obs.sending)
    (nextPtr : h'.nextPtr = h.nextPtr) (kind : h'.kind = h.kind) : KeepsPackets h h' :=
  ⟨fun _ object live => .inl ⟨object,heap ▸ live,rfl⟩,log,nextPtr.ge,kind⟩

theorem refl (h : Host) : KeepsPackets h h := of_same rfl rfl rfl rfl

theorem trans (first : KeepsPackets h h') (second : KeepsPackets h' next) : KeepsPackets h next := by
  refine ⟨fun p object live => ?_,second.log.trans first.log,first.nextPtr.trans second.nextPtr,second.kind.trans first.kind⟩
  rcases second.objects p object live with ⟨mid,live',same⟩ | ⟨low,high,empty⟩
  · rcases first.objects p mid live' with ⟨old,live'',same'⟩ | ⟨low,high,empty⟩
    · exact .inl ⟨old,live'',same.trans same'⟩
    · exact .inr ⟨low,high.trans_le second.nextPtr,same.trans empty⟩
  · exact .inr ⟨first.nextPtr.trans low,high,empty⟩

theorem modify (p : Ptr) (change : SocketObject → SocketObject) (h : Host)
    (kept : ∀ object, (change object).outPacketsQueue = object.outPacketsQueue) : KeepsPackets h (h.modify p change) := by
  refine ⟨fun q object live => .inl ?_,rfl,le_rfl,rfl⟩
  by_cases same : q = p
  · subst same
    obtain ⟨old,live',rfl⟩ : ∃ old, h.heap q = some old ∧ change old = object := by simpa [Host.modify] using live
    exact ⟨old,live',kept old⟩
  · exact ⟨object,by simpa [Host.modify,same] using live,rfl⟩

theorem observe {obs : Obs} (hidden : obs.sending = none) (h : Host) : KeepsPackets h (h.observe obs) :=
  of_same rfl (by simp [Host.observe,hidden]) rfl rfl

theorem of_calm (calm : Calm h h') : KeepsPackets h h' := by
  refine ⟨fun p object live => .inl ?_,?_,calm.nextPtr.ge,calm.kind⟩
  · have same := calm.objects p
    rw [live] at same
    obtain ⟨old,live',shape⟩ := Option.map_eq_some_iff.mp same.symm
    exact ⟨old,live',(congrArg Prod.snd shape).symm⟩
  · exact calm.calm_log (fun _ _ => rfl)

theorem closeFD (fd : FD) (h : Host) : KeepsPackets h (h.closeFD fd) := by
  unfold Host.closeFD
  split
  · exact of_same rfl (by simp [Obs.sending]) rfl rfl
  · exact refl h

theorem addFD (fd : FD) (pv : PVOID) (refused : Bool) (h : Host) : KeepsPackets h (h.addFD fd pv refused).2 := by
  unfold Host.addFD
  split
  · exact refl h
  · exact of_same rfl rfl rfl rfl

theorem deleteObject (p : Ptr) (h : Host) : KeepsPackets h (h.deleteObject p) := by
  refine ⟨fun q object live => .inl ⟨object,?_,rfl⟩,by simp [Host.deleteObject,Obs.sending],le_rfl,rfl⟩
  by_cases same : q = p
  · simp [Host.deleteObject,same] at live
  · simpa [Host.deleteObject,same] using live

theorem newSocketObject (raw : SocketObject) (h : Host) : KeepsPackets h (h.newSocketObject raw).2 := by
  refine ⟨fun q object live => ?_,rfl,Nat.le_succ _,rfl⟩
  by_cases same : q = h.nextPtr
  · have made : SocketObject.create raw = object := by simpa [Host.newSocketObject,same] using live
    exact .inr ⟨same.ge,same ▸ Nat.lt_succ_self _,made ▸ rfl⟩
  · exact .inl ⟨object,by simpa [Host.newSocketObject,same] using live,rfl⟩

theorem prepareObject (raw : SocketObject) (addr : Option Sockaddr) (connected : Option UInt32) (h : Host) :
    KeepsPackets h (h.prepareObject raw addr connected).2 := by
  have named : KeepsPackets h (addr.elim (h.newSocketObject raw).2
      (fun sa => (h.newSocketObject raw).2.modify (h.newSocketObject raw).1 (SocketObject.setRemoteAddr sa))) := by
    cases addr with
    | none => exact newSocketObject raw h
    | some sa => exact (newSocketObject raw h).trans (modify _ (SocketObject.setRemoteAddr sa) _ (fun _ => rfl))
  cases connected with
  | none => exact named
  | some now => exact named.trans (modify _ (SocketObject.setConnected now.toNat) _ (fun _ => rfl))

theorem insertSocketObject (sock : SOCKET) (p : Ptr) (h : Host) : KeepsPackets h (h.insertSocketObject sock p) := by
  have marked := modify p (fun object => (object.setSocketId sock).setValid) h (fun _ => rfl)
  exact marked.trans (of_same rfl rfl rfl rfl)

theorem addTcpSocket (sock : SOCKET) (addr : Sockaddr) (raw : SocketObject) (now : UInt32) (refused : Bool) (h : Host) :
    KeepsPackets h (h.addTcpSocket sock addr raw now refused).2.2 :=
  h.addTcpSocket_rule sock addr raw now refused (refl h) (prepareObject raw (some addr) (some now) h)
    (fun host p kept => kept.trans (insertSocketObject sock p host))
      (fun host p kept => kept.trans (addFD sock (.object p) refused host))

theorem deleteFD (fd : FD) (h : Host) : KeepsPackets h (h.deleteFD fd) := of_same rfl rfl rfl rfl

theorem releaseSocketObjects (h : Host) : KeepsPackets h h.releaseSocketObjects := by
  obtain ⟨host,kept,same⟩ := h.releaseSocketObjects_rule (P := KeepsPackets h) (refl h)
    (fun host entry _ kept => kept.trans ((deleteFD entry.1 host).trans (deleteObject entry.2 _)))
  exact same ▸ kept.trans (of_same rfl rfl rfl rfl)

theorem closeManagerFds (h : Host) : KeepsPackets h h.closeManagerFds :=
  h.closeManagerFds_rule (refl h) (fun host fd kept => kept.trans (deleteFD fd host))
    (fun host fd kept => kept.trans (closeFD fd host)) (fun _ kept => kept.trans (of_same rfl rfl rfl rfl))

theorem startAccept (refused : Bool) (h : Host) : KeepsPackets h (Sys.startAccept refused h) := by
  dsimp only [Sys.startAccept]
  split
  · exact (addFD h.listenSocket .listenSocket refused h).trans (of_same rfl rfl rfl rfl)
  · exact refl h

theorem seen {B : Type} {view : Obs → Option B} (keeps : KeepsPackets h h')
    (sees : ∀ obs, view obs = (Obs.sending obs).bind view) : h'.log.filterMap view = h.log.filterMap view := by
  rw [funext sees,← List.filterMap_filterMap,← List.filterMap_filterMap,keeps.log]

theorem accepted (keeps : KeepsPackets h h') (p : Ptr) : h'.accepted p = h.accepted p :=
  congrArg List.flatten (keeps.seen (fun obs => by cases obs <;> rfl))

theorem written (keeps : KeepsPackets h h') (p : Ptr) : h'.written p = h.written p :=
  congrArg List.flatten (keeps.seen (fun obs => by cases obs <;> rfl))

end KeepsPackets

/-- Every packet holds its payload, and an object that is still to be made has sent nothing. -/
structure Sending (h : Host) : Prop where
  tcp : h.kind ≠ .udpServer
  stored : ∀ p object, h.heap p = some object → ∀ packet ∈ object.outPacketsQueue, ∃ data, packet.Stored data
  below : ∀ p object, h.heap p = some object → p < h.nextPtr
  unborn : ∀ p, h.nextPtr ≤ p → h.accepted p = [] ∧ h.written p = []

theorem KeepsPackets.sending (keeps : KeepsPackets h h') (sending : Sending h) : Sending h' := by
  refine ⟨keeps.kind ▸ sending.tcp,fun p object live => ?_,fun p object live => ?_,fun p fresh => ?_⟩
  · rcases keeps.objects p object live with ⟨old,live',same⟩ | ⟨_,_,empty⟩
    · exact same ▸ sending.stored p old live'
    · simp [empty]
  · rcases keeps.objects p object live with ⟨old,live',_⟩ | ⟨_,high,_⟩
    · exact (sending.below p old live').trans_le keeps.nextPtr
    · exact high
  · rw [keeps.accepted,keeps.written]
    exact sending.unborn p (keeps.nextPtr.trans fresh)

/-- The steps of the channels of all objects. -/
def ChannelSteps (h h' : Host) : Prop := ∀ p, Relation.ReflTransGen Channel.Life (h.channel p) (h'.channel p)

theorem KeepsPackets.life (keeps : KeepsPackets h h') (sending : Sending h) : ChannelSteps h h' := by
  intro p
  cases live : h'.heap p with
  | none =>
    have gone : h'.channel p = none := by simp [channel,live]
    rw [gone]
    cases h.channel p with
    | none => exact .refl
    | some state => exact .single (.lost state)
  | some object =>
    rcases keeps.objects p object live with ⟨old,live',same⟩ | ⟨fresh,_,empty⟩
    · have equal : h'.channel p = h.channel p := by simp [channel,live,live',unsent,same,keeps.accepted,keeps.written]
      rw [equal]
    · have missing : h.heap p = none := by
        by_contra present
        obtain ⟨old,live'⟩ := Option.ne_none_iff_exists'.mp present
        exact absurd (sending.below p old live') (Nat.not_lt.mpr fresh)
      have opened : h'.channel p = some Channel.fresh := by
        simp [channel,live,unsent,empty,keeps.accepted,keeps.written,sending.unborn p fresh,Channel.fresh]
      rw [opened,show h.channel p = none by simp [channel,missing]]
      exact .single .opened

@[simp] theorem accepted_modify (p q : Ptr) (change : SocketObject → SocketObject) (h : Host) :
    (h.modify p change).accepted q = h.accepted q := rfl

@[simp] theorem written_modify (p q : Ptr) (change : SocketObject → SocketObject) (h : Host) :
    (h.modify p change).written q = h.written q := rfl

theorem accepted_observe (obs : Obs) (p : Ptr) (h : Host) :
    (h.observe obs).accepted p = h.accepted p ++ (obs.queuedTo p).getD [] := by
  cases seen : obs.queuedTo p <;> simp [accepted,observe,seen]

theorem written_observe (obs : Obs) (p : Ptr) (h : Host) :
    (h.observe obs).written p = h.written p ++ (obs.writtenTo p).getD [] := by
  cases seen : obs.writtenTo p <;> simp [written,observe,seen]

theorem Sending.change {p : Ptr} {object : SocketObject} (sending : Sending h) (object' : SocketObject)
    (live : h.heap p = some object)
    (heap : h'.heap = Function.update h.heap p (some object')) (nextPtr : h'.nextPtr = h.nextPtr) (kind : h'.kind = h.kind)
    (others : ∀ q, q ≠ p → h'.accepted q = h.accepted q ∧ h'.written q = h.written q)
    (stored : ∀ packet ∈ object'.outPacketsQueue, ∃ data, packet.Stored data)
    (steps : Channel.Step ⟨h.accepted p,h.written p,unsent object⟩ ⟨h'.accepted p,h'.written p,unsent object'⟩) :
    Sending h' ∧ ChannelSteps h h' := by
  have made := sending.below p object live
  refine ⟨⟨kind ▸ sending.tcp,fun q other live' => ?_,fun q other live' => ?_,fun q fresh => ?_⟩,fun q => ?_⟩
  · by_cases same : q = p
    · obtain rfl : object' = other := by simpa [heap,same] using live'
      exact stored
    · exact sending.stored q other (by simpa [heap,same] using live')
  · rw [nextPtr]
    by_cases same : q = p
    · exact same ▸ made
    · exact sending.below q other (by simpa [heap,same] using live')
  · rw [nextPtr] at fresh
    have differs : q ≠ p := by
      rintro rfl
      exact absurd made (Nat.not_lt.mpr fresh)
    rw [(others q differs).1,(others q differs).2]
    exact sending.unborn q fresh
  · by_cases same : q = p
    · subst same
      rw [show h.channel q = some _ by rw [channel,live]; rfl,
        show h'.channel q = some _ by rw [channel,heap,Function.update_self]; rfl]
      exact .single (.step steps)
    · have equal : h'.channel q = h.channel q := by simp [channel,heap,same,others q same]
      rw [equal]

theorem front_packet {p : Ptr} {packet : MsgPacket} (front : h.frontPacket p = some packet) :
    ∃ object rest, h.heap p = some object ∧ object.outPacketsQueue = packet::rest := by
  obtain ⟨object,live,at_front⟩ := Option.bind_eq_some_iff.mp front
  obtain ⟨rest,queue⟩ := List.head?_eq_some_iff.mp at_front
  exact ⟨object,rest,live,queue⟩

theorem Sending.write {p : Ptr} {packet : MsgPacket} {count : Nat} (sending : Sending h) (front : h.frontPacket p = some packet)
    (fits : (count : Int) ≤ packet.size) :
    Sending ((h.modify p (SocketObject.reduceFront count)).observe (.written p (packet.bytesFrom count) none)) ∧
      ChannelSteps h ((h.modify p (SocketObject.reduceFront count)).observe (.written p (packet.bytesFrom count) none)) := by
  obtain ⟨object,rest,live,queue⟩ := front_packet front
  obtain ⟨data,stored⟩ := sending.stored p object live packet (by simp [queue])
  obtain ⟨kept,advanced⟩ := stored.reduce (Int.natCast_nonneg count) fits
  have reduced : (object.reduceFront count).outPacketsQueue = packet.reduce count::rest := by
    simp [SocketObject.reduceFront,queue]
  have taken : packet.bytesFrom count = packet.unsent.take count := by
    rw [MsgPacket.unsent,MsgPacket.bytesFrom,MsgPacket.bytesFrom,List.take_take,Nat.min_eq_left (by omega)]
  refine sending.change (object.reduceFront count) live (by simp [observe,modify,live]) rfl rfl (fun q differs => ?_) ?_ ?_
  · rw [accepted_observe,written_observe]
    simp [Obs.queuedTo,Obs.writtenTo,Ne.symm differs]
  · rw [reduced]
    intro other member
    rcases List.mem_cons.mp member with rfl | old
    · exact ⟨data,kept⟩
    · exact sending.stored p object live other (by simp [queue,old])
  · rw [accepted_observe,written_observe]
    simp only [Obs.queuedTo,Obs.writtenTo,if_true,Option.getD_none,Option.getD_some,List.append_nil,accepted_modify,
      written_modify,unsent,reduced,queue,List.map_cons,taken,advanced,Int.toNat_natCast]
    exact .deliver _ _ packet.unsent _ count

theorem Sending.pop {p : Ptr} (sending : Sending h) (empty : ∀ object, h.heap p = some object →
    ∃ packet rest, object.outPacketsQueue = packet::rest ∧ packet.size = 0) :
    Sending (h.modify p SocketObject.popOutPacket) ∧ ChannelSteps h (h.modify p SocketObject.popOutPacket) := by
  cases live : h.heap p with
  | none =>
    have same : (h.modify p SocketObject.popOutPacket).heap = h.heap := by
      rw [modify,live]
      exact Function.update_eq_self_iff.mpr live.symm
    have keeps : h.KeepsPackets (h.modify p SocketObject.popOutPacket) := .of_same same rfl rfl rfl
    exact ⟨keeps.sending sending,keeps.life sending⟩
  | some object =>
    obtain ⟨packet,rest,queue,spent⟩ := empty object live
    obtain ⟨data,stored⟩ := sending.stored p object live packet (by simp [queue])
    have none_left : packet.unsent = [] := by
      have size := stored.unsent_length
      exact List.length_eq_zero_iff.mp (by omega)
    refine sending.change object.popOutPacket live (by simp [modify,live]) rfl rfl (fun q _ => ⟨rfl,rfl⟩) ?_ ?_
    · intro other member
      exact sending.stored p object live other (List.mem_of_mem_tail member)
    · simp only [unsent,SocketObject.popOutPacket,queue,List.map_cons,List.tail_cons,none_left]
      exact .pop _ _ _

theorem Sending.push {p : Ptr} {object : SocketObject} (sending : Sending h) (live : h.heap p = some object) (raw : MsgPacket)
    (buf : List UInt8) (addr : Option Sockaddr) (room : object.outPacketsQueue.length < SocketObject.kMaxNumOfPackets)
    (some_bytes : 0 < buf.length) (small : (buf.length : Int) < MsgPacket.kMaxSizeOfPacket) :
    Sending ((h.modify p (fun _ => (object.push raw buf addr).2)).observe (.queued p buf addr)) ∧
      ChannelSteps h ((h.modify p (fun _ => (object.push raw buf addr).2)).observe (.queued p buf addr)) := by
  obtain ⟨stored,at_start⟩ := MsgPacket.build_stored raw buf addr some_bytes small
  have pushed : (object.push raw buf addr).2.outPacketsQueue =
      object.outPacketsQueue ++ [MsgPacket.build raw (int32 buf.length) buf addr] := by
    rw [SocketObject.push,if_neg (Nat.not_le.mpr room)]
  refine sending.change (object.push raw buf addr).2 live (by simp [observe,modify,live]) rfl rfl (fun q differs => ?_) ?_ ?_
  · rw [accepted_observe,written_observe]
    simp [Obs.queuedTo,Obs.writtenTo,Ne.symm differs]
  · rw [pushed]
    intro other member
    rcases List.mem_append.mp member with old | new
    · exact sending.stored p object live other old
    · exact ⟨buf,List.mem_singleton.mp new ▸ stored⟩
  · rw [accepted_observe,written_observe]
    simp only [Obs.queuedTo,Obs.writtenTo,if_true,Option.getD_none,Option.getD_some,List.append_nil,accepted_modify,
      written_modify,unsent,pushed,List.map_append,List.map_cons,List.map_nil,stored.unsent_eq,at_start,Int.toNat_zero,
        List.drop_zero]
    exact .push _ _ _ buf

end Host

/-- The object whose front packet is being sent. -/
def Worker.sending : Worker → Option Ptr
  | .sendPacket p _ | .popPacket p _ => some p
  | _ => none

namespace Sys

/-- What a step of the worker does to the out packets of the objects, whatever the server. -/
inductive Touched (h : Host) (w : Worker) (act : Act) (h' : Host) (w' : Worker) : Prop
  | kept (keeps : h.KeepsPackets h') (before : w.sending = none) (after : ∀ p ctx, w' ≠ .popPacket p ctx)
  | written (p ctx packet) (count : Nat) (at_w : w = .sendPacket p ctx) (answered : act = .write (.ok count))
      (front : h.frontPacket p = some packet) (left : packet.size ≠ 0) (fits : h.fitsPacket packet.size (.ok count))
      (host : h' = (h.handleSend p packet (.ok count)).1) (worker : w' = .sendPacket p ctx)
  | failed (p ctx code) (at_w : w = .sendPacket p ctx) (answered : act = .write (.error code)) (host : h' = h)
      (worker : w' = resume ctx)
  | emptied (p ctx packet) (at_w : w = .sendPacket p ctx) (front : h.frontPacket p = some packet) (empty : packet.size = 0)
      (host : h' = h) (worker : w' = .popPacket p ctx)
  | popped (p ctx) (at_w : w = .popPacket p ctx) (host : h' = h.modify p SocketObject.popOutPacket)
      (worker : w' = .sendLoop p ctx)

/-- What a step of the worker does to the packets. -/
inductive Packets (h : Host) (w : Worker) (h' : Host) (w' : Worker) : Prop
  | kept (keeps : h.KeepsPackets h')
      (popping : ∀ p ctx, w' = .popPacket p ctx → ∃ packet, h.frontPacket p = some packet ∧ packet.size = 0)
  | written (p ctx packet) (count : Nat) (front : h.frontPacket p = some packet) (fits : (count : Int) ≤ packet.size)
      (host : h' = (h.modify p (SocketObject.reduceFront count)).observe (.written p (packet.bytesFrom count) none))
      (worker : w' = .sendPacket p ctx)
  | popped (p ctx) (at_pop : w = .popPacket p ctx) (host : h' = h.modify p SocketObject.popOutPacket)
      (worker : w' = .sendLoop p ctx)

private theorem resume_pops (ctx : Ctx) (p : Ptr) (ctx' : Ctx) : resume ctx ≠ .popPacket p ctx' := by cases ctx <;> simp [resume]

private theorem afterRead_pops (rs : Bool) (q : Ptr) (events : UInt32) (ctx : Ctx) (p : Ptr) (ctx' : Ctx) :
    afterRead rs q events ctx ≠ .popPacket p ctx' :=
  afterRead_rule (P := fun w => w ≠ .popPacket p ctx') (by simp) (resume_pops ctx p ctx') rs events

private theorem doProcessIo_pops (q : Ptr) (events : UInt32) (ctx : Ctx) (p : Ptr) (ctx' : Ctx) :
    doProcessIo q events ctx ≠ .popPacket p ctx' :=
  doProcessIo_rule (P := fun w => w ≠ .popPacket p ctx') (by simp) (by simp) (resume_pops ctx p ctx')

theorem Move.touched {h h' : Host} {w w' : Worker} {act : Act} (move : Move h w act h' w') : Touched h w act h' w' := by
  have other {h' : Host} {w w' : Worker} {act : Act} (keeps : h.KeepsPackets h') (before : w.sending = none)
      (after : ∀ p ctx, w' ≠ .popPacket p ctx) : Touched h w act h' w' :=
    .kept keeps before after
  cases move with
  | batchEnd bRun => exact other (.refl h) rfl (by cases bRun <;> simp)
  | disconnected count b cmd queue p object front left kind found live valid =>
    exact other ((Host.KeepsPackets.modify p SocketObject.setInvalid h (fun _ => rfl)).trans (.observe rfl _)) rfl (by simp)
  | closeAccepted sock ctx => exact other (.closeFD sock h) rfl (resume_pops ctx)
  | connected p sock ctx => exact other (.observe rfl h) rfl (resume_pops ctx)
  | writeInvalid p ctx => exact other (.refl h) rfl (resume_pops ctx)
  | sendDone p ctx empty => exact other (.refl h) rfl (resume_pops ctx)
  | packetSent p ctx packet front empty => exact .emptied p ctx packet rfl front empty rfl rfl
  | popPacket p ctx => exact .popped p ctx rfl rfl rfl
  | removeClose p sock count b => exact other (.closeFD sock h) rfl (by simp)
  | removeDelete p sock count b => exact other (.deleteObject p h) rfl (by simp)
  | timer exp now b => exact other (.of_calm (Host.onTimer_calm exp now h)) rfl (by simp)
  | listenError events ctx soError now kind error => exact other (.refl h) rfl (resume_pops ctx)
  | serverIo p events ctx soError now kind => exact other (.refl h) rfl (doProcessIo_pops p events ctx)
  | clientRefused p events ctx soError now kind refused =>
    exact other (.of_calm (Host.onBeforeProcessIo_refused refused)) rfl (resume_pops ctx)
  | clientIo p events ctx soError now kind passed =>
    refine other ?_ rfl (doProcessIo_pops p events ctx)
    obtain ⟨object,_,_,⟨_,result⟩ | ⟨_,result⟩⟩ := Host.onBeforeProcessIo_accepted passed
    · rw [result]
      exact .refl h
    · rw [result]
      exact (Host.KeepsPackets.modify p (SocketObject.setConnected now.toNat) h (fun _ => rfl)).trans (.observe rfl _)
  | acceptFailed code ctx => exact other (.refl h) rfl (resume_pops ctx)
  | blocking sock addr ctx => exact other (.refl h) rfl (resume_pops ctx)
  | added sock addr ctx raw now refused ok => exact other (.addTcpSocket sock addr raw now refused h) rfl (by simp)
  | notAdded sock addr ctx raw now refused failed => exact other (.addTcpSocket sock addr raw now refused h) rfl (by simp)
  | readInvalid p events ctx now none => exact other (.refl h) rfl (resume_pops ctx)
  | readStarted p events ctx now sock next started => exact other (.of_calm (Host.startReceive_calm started).1) rfl (by simp)
  | readOn p sock events ctx rc addr timeMs fits again =>
    refine other ?_ rfl (by simp)
    obtain ⟨mid,buf,from_addr,calm,result⟩ := Host.handleReceive_again again
    rw [result]
    exact (Host.KeepsPackets.of_calm calm).trans (.observe rfl mid)
  | readDone p sock events ctx rc addr timeMs rs fits done =>
    exact other (.of_calm (Host.handleReceive_done done)) rfl (afterRead_pops rs p events ctx)
  | written p ctx packet count front left fits => exact .written p ctx packet count rfl rfl front left fits rfl rfl
  | writeFailed p ctx code => exact .failed p ctx code rfl rfl rfl rfl
  | _ => exact other (.of_same rfl rfl rfl rfl) rfl (by simp)

theorem Move.packets {h h' : Host} {w w' : Worker} {act : Act} (tcp : h.kind ≠ .udpServer) (move : Move h w act h' w') :
    Packets h w h' w' := by
  cases move.touched with
  | kept keeps before after => exact .kept keeps (fun p ctx at_pop => absurd at_pop (after p ctx))
  | written p ctx packet count at_w answered front left fits host worker =>
    refine .written p ctx packet count front ?_ ?_ worker
    · cases kind : h.kind <;> simp_all [Host.fitsPacket]
    · cases kind : h.kind <;>
        simp_all [Host.handleSend,TcpServer.handleSend,TcpClient.handleSend,Host.sendIteration]
  | failed p ctx code at_w answered host worker =>
    exact .kept (host ▸ .refl h) (fun q ctx' at_pop => absurd (worker.symm.trans at_pop) (resume_pops ctx q ctx'))
  | emptied p ctx packet at_w front empty host worker =>
    refine .kept (host ▸ .refl h) (fun q ctx' at_pop => ⟨packet,?_,empty⟩)
    obtain ⟨rfl,_⟩ := Worker.popPacket.inj (worker.symm.trans at_pop)
    exact front
  | popped p ctx at_w host worker => exact .popped p ctx at_w host worker

/-- A write is tried on a packet at the front of the queue that is not empty. -/
theorem write_left {s next : Sys} {p : Ptr} {ctx : Ctx} {rc : Except Errno Nat} (at_w : s.worker = .sendPacket p ctx)
    (taken : s.step (.write rc) = some next) : ∃ packet, s.host.frontPacket p = some packet ∧ packet.size ≠ 0 := by
  simp only [step,workerAct,at_w,write] at taken
  split at taken
  · obtain ⟨packet,front,taken⟩ := Option.bind_eq_some_iff.mp taken
    split at taken
    · rename_i guard
      exact ⟨packet,front,guard.1⟩
    · contradiction
  · contradiction

theorem CallStep.packets {h h' : Host} {w : Worker} {c c' : Caller} {reply : Reply} (call : CallStep h w c reply h' c') :
    h.KeepsPackets h' := by
  cases call with
  | evtWrite next =>
    unfold Host.writeCmdEvt
    split <;> exact .of_same rfl rfl rfl rfl
  | connected op addr sock raw now from_addr => exact .prepareObject raw from_addr (some now) h
  | inProgress addr sock raw => exact .prepareObject raw (some addr) none h
  | insert sock p notify => exact .insertSocketObject sock p h
  | addFD sock p notify reply refused => exact .addFD sock _ refused h
  | onConnect sock p => exact .observe rfl h
  | closeSock sock => exact .closeFD sock h
  | closeListenSocket => exact .closeFD h.listenSocket h
  | release => exact .releaseSocketObjects h
  | closeFds => exact (Host.KeepsPackets.closeManagerFds h).trans (.observe rfl _)
  | _ => exact .of_same rfl rfl rfl rfl

/-- The payload is one that `MsgPacket` stores. -/
def SendsStored (act : Act) : Prop :=
  ∀ send ∈ message act, 0 < send.2.2.2.2.length ∧ (send.2.2.2.2.length : Int) < MsgPacket.kMaxSizeOfPacket

instance (act : Act) : Decidable (SendsStored act) := inferInstanceAs (Decidable (∀ send ∈ message act, _))

/-- The packets are sound, and the worker pops an empty packet only. -/
structure Streaming (s : Sys) : Prop where
  sending : s.host.Sending
  popping : ∀ p ctx, s.worker = .popPacket p ctx → p < s.host.nextPtr ∧
    ∀ object, s.host.heap p = some object → ∃ packet rest, object.outPacketsQueue = packet::rest ∧ packet.size = 0

private theorem Streaming.kept {s : Sys} (streaming : Streaming s) {host : Host} (keeps : s.host.KeepsPackets host)
    {callers : List Caller} {stopCalled : Bool} :
    Streaming ⟨host,s.worker,callers,stopCalled⟩ ∧ Host.ChannelSteps s.host host := by
  refine ⟨⟨keeps.sending streaming.sending,fun p ctx at_pop => ?_⟩,keeps.life streaming.sending⟩
  obtain ⟨made,front⟩ := streaming.popping p ctx at_pop
  refine ⟨made.trans_le keeps.nextPtr,fun object live => ?_⟩
  rcases keeps.objects p object live with ⟨old,live',same⟩ | ⟨fresh,_,_⟩
  · exact same ▸ front old live'
  · exact absurd made (Nat.not_lt.mpr fresh)

private theorem Streaming.work {s : Sys} (streaming : Streaming s) {host : Host} {worker : Worker}
    (packets : Packets s.host s.worker host worker) : Streaming (s.moveTo host worker) ∧ Host.ChannelSteps s.host host := by
  have sending := streaming.sending
  cases packets with
  | kept keeps popping =>
    refine ⟨⟨keeps.sending sending,fun p ctx at_pop => ?_⟩,keeps.life sending⟩
    obtain ⟨packet,front,empty⟩ := popping p ctx at_pop
    obtain ⟨object,rest,live,queue⟩ := Host.front_packet front
    have made := sending.below p object live
    refine ⟨made.trans_le keeps.nextPtr,fun object' live' => ?_⟩
    rcases keeps.objects p object' live' with ⟨old,at_old,same⟩ | ⟨fresh,_,_⟩
    · obtain rfl : object = old := Option.some.inj (live.symm.trans at_old)
      exact ⟨packet,rest,same.trans queue,empty⟩
    · exact absurd made (Nat.not_lt.mpr fresh)
  | written p ctx packet count front fits host worker =>
    subst host worker
    exact (sending.write front fits).imp_left (fun kept => ⟨kept,by simp [moveTo]⟩)
  | popped p ctx at_pop host worker =>
    subst host worker
    exact (sending.pop (streaming.popping p ctx at_pop).2).imp_left (fun kept => ⟨kept,by simp [moveTo]⟩)

/-- A step is one of the channel of each object, or changes nothing in it. -/
theorem Streaming.step {s next : Sys} {act : Act} (streaming : Streaming s) (sizes : SendsStored act)
    (taken : s.step act = some next) : Streaming next ∧ Host.ChannelSteps s.host next.host := by
  cases step_taken taken with
  | arrive conn kind listening =>
    have keeps : s.host.KeepsPackets (arrive conn s.host) := .of_same rfl rfl rfl rfl
    exact streaming.kept keeps
  | startAccept refused kind => exact streaming.kept (.startAccept refused s.host)
  | sendRefused act sends => exact ⟨streaming,fun _ => .refl⟩
  | sent act t sock addr raw buf p object sends kind idle found live valid room =>
    obtain ⟨some_bytes,small⟩ := sizes _ sends
    obtain ⟨sending,steps⟩ := streaming.sending.push live raw buf addr room some_bytes small
    refine ⟨⟨sending,fun q ctx at_pop => ?_⟩,steps⟩
    obtain ⟨made,front⟩ := streaming.popping q ctx at_pop
    refine ⟨made,fun object' live' => ?_⟩
    by_cases same : q = p
    · obtain ⟨packet,rest,queue,empty⟩ := front object (same ▸ live)
      obtain rfl : (object.push raw buf addr).2 = object' := by
        simpa [setCaller,Host.observe,Host.modify,same,live] using live'
      refine ⟨packet,rest ++ [MsgPacket.build raw (int32 buf.length) buf addr],?_,empty⟩
      rw [SocketObject.push,if_neg (Nat.not_le.mpr room)]
      simp only [queue,List.cons_append]
    · exact front object' (by simpa [setCaller,Host.observe,Host.modify,same] using live')
  | disconnect t sock idle => exact streaming.kept (.refl s.host)
  | limitIgnored sock num => exact ⟨streaming,fun _ => .refl⟩
  | limitSet sock num p change kind found which =>
    refine streaming.kept (.modify p change s.host (fun object => ?_))
    rcases which with rfl | rfl <;> rfl
  | connect t op addr idle offered => exact streaming.kept (.refl s.host)
  | stop t idle outside first => exact streaming.kept (.refl s.host)
  | caller t c reply host later found may call => exact streaming.kept call.packets
  | worker act host worker idle move => exact streaming.work (move.packets streaming.sending.tcp)

theorem started_streaming (config : Config) (tcp : config.kind ≠ .udpServer) : Streaming config.started :=
  ⟨⟨tcp,by simp [Config.started],by simp [Config.started],by simp [Config.started,Host.accepted,Host.written]⟩,
    by simp [Config.started]⟩

/-- The out queue of each object of a run follows a channel that is opened empty. -/
theorem run_channel {config : Config} {acts : List Act} {s : Sys} (run : Run config acts s) (tcp : config.kind ≠ .udpServer)
    (sizes : ∀ act ∈ acts, SendsStored act) (p : Ptr) : Relation.ReflTransGen Channel.Life none (s.host.channel p) :=
  Transition.exec_simulated (fun s => s.host.channel p) (fun _ _ _ sizes streaming taken => (streaming.step sizes taken).1)
    (fun _ _ _ sizes streaming taken => (streaming.step sizes taken).2 p) (Transition.along_of_forall sizes)
    (started_streaming config tcp) run

/-- What was written to a connection and what its packets still hold are what its sends were given. -/
theorem stream_kept {config : Config} {acts : List Act} {s : Sys} (run : Run config acts s) (tcp : config.kind ≠ .udpServer)
    (sizes : ∀ act ∈ acts, SendsStored act) {p : Ptr} {object : SocketObject} (live : s.host.heap p = some object) :
    s.host.written p ++ object.outPacketsQueue.flatMap MsgPacket.unsent = s.host.accepted p ∧
      (SocketObject.kMaxNumOfPackets ≤ object.outPacketsQueue.length → ∀ sock addr raw buf,
        s.host.findSocketObject sock = some p → s.host.storeMessage sock addr raw buf = (socketError,s.host)) := by
  constructor
  · have conserved := Channel.run_conserved (run_channel run tcp sizes p) (by simp) ⟨_,_,Host.unsent object⟩
      (by rw [Host.channel,live]; rfl)
    rw [List.flatMap_def]
    exact conserved
  · intro full sock addr raw buf found
    simp [Host.storeMessage,found,live,SocketObject.push,full]

/-- A message of which `write` takes two bytes before it would block. -/
def partialWrite : List Act :=
  connectionBurst 1 ++ [.send 1 7 ⟨none,0,0,0,0,[]⟩ [1,2,3,4,5],.caller 1 .done,.caller 1 .done,.epollPwait (.ok [(5,epollin)]),
    .worker,.worker,.beforeIo (.ok 0) 0,.worker,.worker,.write (.ok 2),.write (.error eagain)]

theorem partial_write_kept :
    ∃ s object, Run (.plain .tcpServer 2) partialWrite s ∧ s.host.heap 0 = some object ∧ s.host.written 0 = [1,2] ∧
      s.host.written 0 ++ object.outPacketsQueue.flatMap MsgPacket.unsent = s.host.accepted 0 := by
  obtain ⟨s,run,live,written⟩ := run_reaches (.plain .tcpServer 2) partialWrite
    (fun s => (s.host.heap 0).isSome = true ∧ s.host.written 0 = [1,2]) (by decide +kernel)
  obtain ⟨object,live⟩ := Option.isSome_iff_exists.mp live
  exact ⟨s,object,run,live,written,(stream_kept run (by decide) (by decide +kernel) live).1⟩

end Sys

end LightServer
