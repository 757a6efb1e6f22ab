import LightServer.SendCalls

/-! The out packets of a UDP socket. A packet is one datagram with its address, and `sendto`
takes the whole of it or fails. -/
namespace LightServer

/-- An address and a payload. -/
abbrev Datagram := Option Sockaddr × List UInt8

namespace Obs

def queuedDatagram (p : Ptr) : Obs → Option Datagram
  | .queued q buf addr => if q = p then some (addr,buf) else none
  | _ => none

def sentDatagram (p : Ptr) : Obs → Option Datagram
  | .written q buf addr => if q = p then some (addr,buf) else none
  | _ => none

end Obs

namespace MsgPacket

/-- What `sendto` is given for the packet. -/
def datagram (packet : MsgPacket) : Datagram := (some packet.saddr,packet.unsent)

theorem build_datagram (raw : MsgPacket) {buf : List UInt8} (addr : Sockaddr) (some_bytes : 0 < buf.length)
    (small : (buf.length : Int) < kMaxSizeOfPacket) :
    Stored (build raw (int32 buf.length) buf (some addr)) buf ∧ (build raw (int32 buf.length) buf (some addr)).size ≠ 0 ∧
      (build raw (int32 buf.length) buf (some addr)).saddr = addr ∧
        (build raw (int32 buf.length) buf (some addr)).unsent = buf := by
  obtain ⟨stored,at_start⟩ := build_stored raw buf (some addr) some_bytes small
  have unsent : (build raw (int32 buf.length) buf (some addr)).unsent = buf := by
    rw [stored.unsent_eq,at_start,Int.toNat_zero,List.drop_zero]
  have fits : int32 buf.length = buf.length := int32_of_lt (by omega) (by simp only [kMaxSizeOfPacket] at small; omega)
  have length := stored.unsent_length
  rw [unsent] at length
  refine ⟨stored,by omega,?_,unsent⟩
  rw [fits,build,if_pos ⟨by omega,small⟩,Option.getD_some]

theorem reduce_spent {packet : MsgPacket} {count : Int} (whole : count = packet.size) : (packet.reduce count).size = 0 := by
  have moved : (packet.reduce count).endPtr - (packet.reduce count).beginPtr = packet.endPtr - packet.beginPtr - packet.size := by
    simp only [reduce,whole,lt_irrefl,if_false]
    omega
  rw [size,moved,size,int32,int32,Int.sub_bmod_bmod,sub_self,Int.zero_bmod]

end MsgPacket

namespace Host

variable {h h' : Host}

/-- The sends to the object that returned 0. -/
def queuedDatagrams (p : Ptr) (h : Host) : List Datagram := h.log.filterMap (Obs.queuedDatagram p)

/-- The datagrams that `sendto` took for the object. -/
def sentDatagrams (p : Ptr) (h : Host) : List Datagram := h.log.filterMap (Obs.sentDatagram p)

def unsentDatagrams (object : SocketObject) : List Datagram :=
  (object.outPacketsQueue.filter (fun packet => packet.size ≠ 0)).map MsgPacket.datagram

theorem KeepsPackets.queuedDatagrams (keeps : KeepsPackets h h') (p : Ptr) : h'.queuedDatagrams p = h.queuedDatagrams p :=
  keeps.seen (fun obs => by cases obs <;> rfl)

theorem KeepsPackets.sentDatagrams (keeps : KeepsPackets h h') (p : Ptr) : h'.sentDatagrams p = h.sentDatagrams p :=
  keeps.seen (fun obs => by cases obs <;> rfl)

theorem queuedDatagrams_observe (obs : Obs) (p : Ptr) (h : Host) :
    (h.observe obs).queuedDatagrams p = h.queuedDatagrams p ++ (obs.queuedDatagram p).toList := by
  cases seen : obs.queuedDatagram p <;> simp [queuedDatagrams,observe,seen]

theorem sentDatagrams_observe (obs : Obs) (p : Ptr) (h : Host) :
    (h.observe obs).sentDatagrams p = h.sentDatagrams p ++ (obs.sentDatagram p).toList := by
  cases seen : obs.sentDatagram p <;> simp [sentDatagrams,observe,seen]

@[simp] theorem queuedDatagrams_modify (p q : Ptr) (change : SocketObject → SocketObject) (h : Host) :
    (h.modify p change).queuedDatagrams q = h.queuedDatagrams q := rfl

@[simp] theorem sentDatagrams_modify (p q : Ptr) (change : SocketObject → SocketObject) (h : Host) :
    (h.modify p change).sentDatagrams q = h.sentDatagrams q := rfl

theorem udp_written {packet : MsgPacket} {count : Nat} (h : Host) (p : Ptr) (udp : h.kind = .udpServer)
    (fits : h.fitsPacket packet.size (.ok count)) : (count : Int) = packet.size ∧
      (h.handleSend p packet (.ok count)).1 =
        (h.modify p (SocketObject.reduceFront count)).observe (.written p (packet.bytesFrom count) (some packet.saddr)) := by
  simp only [fitsPacket,udp,Bool.and_eq_true,decide_eq_true_eq] at fits
  exact ⟨fits.2,by simp [handleSend,udp,UdpServer.handleSend,sendIteration]⟩

section unsentDatagrams

variable {object : SocketObject} {packet : MsgPacket} {rest : List MsgPacket}

theorem unsentDatagrams_cons (queue : object.outPacketsQueue = packet::rest) (left : packet.size ≠ 0) :
    unsentDatagrams object = packet.datagram::(rest.filter (fun packet => packet.size ≠ 0)).map MsgPacket.datagram := by
  rw [unsentDatagrams,queue,List.filter_cons_of_pos (by simpa using left),List.map_cons]

theorem unsentDatagrams_spent (queue : object.outPacketsQueue = packet::rest) (spent : packet.size = 0) :
    unsentDatagrams object = (rest.filter (fun packet => packet.size ≠ 0)).map MsgPacket.datagram := by
  rw [unsentDatagrams,queue,List.filter_cons_of_neg (by simpa using spent)]

theorem reduceFront_queue (queue : object.outPacketsQueue = packet::rest) (count : Int) :
    (object.reduceFront count).outPacketsQueue = packet.reduce count::rest := by
  simp [SocketObject.reduceFront,queue]

theorem popOutPacket_queue (queue : object.outPacketsQueue = packet::rest) : object.popOutPacket.outPacketsQueue = rest := by
  simp [SocketObject.popOutPacket,queue]

end unsentDatagrams

/-- The queue of an object: its packets are sound, and none but the front one can be spent. -/
structure Datagrams (p : Ptr) (h : Host) (sending : Option Ptr) (object : SocketObject) : Prop where
  stored : ∀ packet ∈ object.outPacketsQueue, ∃ data, packet.Stored data
  front : ∀ packet ∈ object.outPacketsQueue.head?, packet.size = 0 → sending = some p
  rest : ∀ packet ∈ object.outPacketsQueue.tail, packet.size ≠ 0
  kept : h.sentDatagrams p ++ unsentDatagrams object = h.queuedDatagrams p

namespace Datagrams

variable {p : Ptr} {sending : Option Ptr} {object : SocketObject}

/-- While no packet is being sent, what is queued is what is left to send. -/
theorem unspent (holds : h.Datagrams p sending object) (idle : sending ≠ some p) :
    unsentDatagrams object = object.outPacketsQueue.map MsgPacket.datagram := by
  rw [unsentDatagrams,List.filter_eq_self.mpr]
  intro packet member
  have left : packet.size ≠ 0 := by
    cases queue : object.outPacketsQueue with
    | nil => simp [queue] at member
    | cons front rest =>
      rcases List.mem_cons.mp (queue ▸ member) with rfl | later
      · exact fun spent => idle (holds.front packet (by simp [queue]) spent)
      · exact holds.rest packet (by simpa [queue] using later)
  simpa using left

theorem weaken {sending' : Option Ptr} (holds : h.Datagrams p sending object) (later : sending = some p → sending' = some p) :
    h.Datagrams p sending' object :=
  ⟨holds.stored,fun packet front spent => later (holds.front packet front spent),holds.rest,holds.kept⟩

theorem keep {object' : SocketObject} (holds : h.Datagrams p sending object) (keeps : KeepsPackets h h')
    (same : object'.outPacketsQueue = object.outPacketsQueue) : h'.Datagrams p sending object' := by
  obtain ⟨stored,front,rest,kept⟩ := holds
  refine ⟨same ▸ stored,same ▸ front,same ▸ rest,?_⟩
  rw [keeps.sentDatagrams,keeps.queuedDatagrams,← kept,unsentDatagrams,unsentDatagrams,same]

theorem append {object' : SocketObject} {packet : MsgPacket} (holds : h.Datagrams p sending object)
    (pushed : object'.outPacketsQueue = object.outPacketsQueue ++ [packet]) (sound : ∃ data, packet.Stored data)
    (left : packet.size ≠ 0) (change : SocketObject → SocketObject) :
    ((h.modify p change).observe (.queued p packet.unsent (some packet.saddr))).Datagrams p sending object' := by
  obtain ⟨stored,front,rest,kept⟩ := holds
  refine ⟨fun other member => ?_,fun other at_front spent => ?_,fun other member => ?_,?_⟩
  · rw [pushed] at member
    rcases List.mem_append.mp member with old | new
    · exact stored other old
    · exact List.mem_singleton.mp new ▸ sound
  · rw [pushed,List.head?_append] at at_front
    cases queue : object.outPacketsQueue.head? with
    | some first => exact front other (by simpa [queue] using at_front) spent
    | none =>
      obtain rfl : packet = other := by simpa [queue] using at_front
      exact absurd spent left
  · rw [pushed] at member
    cases queue : object.outPacketsQueue with
    | nil => simp [queue] at member
    | cons first later =>
      rw [queue] at member
      rcases List.mem_append.mp member with old | new
      · exact rest other (by simpa [queue] using old)
      · exact List.mem_singleton.mp new ▸ left
  · rw [sentDatagrams_observe,queuedDatagrams_observe,unsentDatagrams,pushed,List.filter_append,List.map_append]
    simp [Obs.sentDatagram,Obs.queuedDatagram,left,← kept,unsentDatagrams,MsgPacket.datagram]

theorem push (holds : h.Datagrams p sending object) (raw : MsgPacket) {buf : List UInt8} (addr : Sockaddr)
    (room : object.outPacketsQueue.length < SocketObject.kMaxNumOfPackets)
    (some_bytes : 0 < buf.length) (small : (buf.length : Int) < MsgPacket.kMaxSizeOfPacket)
    (change : SocketObject → SocketObject) :
    ((h.modify p change).observe (.queued p buf (some addr))).Datagrams p sending (object.push raw buf (some addr)).2 := by
  obtain ⟨stored,left,saddr,unsent⟩ := MsgPacket.build_datagram raw addr some_bytes small
  have pushed : (object.push raw buf (some addr)).2.outPacketsQueue =
      object.outPacketsQueue ++ [MsgPacket.build raw (int32 buf.length) buf (some addr)] := by
    rw [SocketObject.push,if_neg (Nat.not_le.mpr room)]
  have holds := holds.append pushed ⟨buf,stored⟩ left change
  rwa [saddr,unsent] at holds

theorem write {packet : MsgPacket} {rest : List MsgPacket} {count : Nat} (holds : h.Datagrams p sending object)
    (queue : object.outPacketsQueue = packet::rest) (left : packet.size ≠ 0) (whole : (count : Int) = packet.size) :
    ((h.modify p (SocketObject.reduceFront count)).observe (.written p (packet.bytesFrom count) (some packet.saddr))).Datagrams p
      (some p) (object.reduceFront count) := by
  obtain ⟨stored,front,later,kept⟩ := holds
  obtain ⟨data,sound⟩ := stored packet (by simp [queue])
  have reduced := reduceFront_queue queue count
  refine ⟨fun other member => ?_,fun _ _ _ => rfl,fun other member => ?_,?_⟩
  · rw [reduced] at member
    rcases List.mem_cons.mp member with rfl | old
    · exact ⟨data,(sound.reduce (Int.natCast_nonneg count) whole.le).1⟩
    · exact stored other (by simp [queue,old])
  · exact later other (by simpa [reduced,queue] using member)
  · have taken : packet.bytesFrom count = packet.unsent := by rw [MsgPacket.unsent,← whole,Int.toNat_natCast]
    rw [sentDatagrams_observe,queuedDatagrams_observe,unsentDatagrams_spent reduced (MsgPacket.reduce_spent whole),taken]
    simp [Obs.sentDatagram,Obs.queuedDatagram,← kept,unsentDatagrams_cons queue left,MsgPacket.datagram]

theorem pop {packet : MsgPacket} {rest : List MsgPacket} (holds : h.Datagrams p sending object)
    (queue : object.outPacketsQueue = packet::rest) (spent : packet.size = 0) (sending' : Option Ptr)
    (change : SocketObject → SocketObject) : (h.modify p change).Datagrams p sending' object.popOutPacket := by
  obtain ⟨stored,front,later,kept⟩ := holds
  have popped := popOutPacket_queue queue
  have left {other : MsgPacket} (member : other ∈ rest) : other.size ≠ 0 := later other (by simpa [queue] using member)
  refine ⟨fun other member => ?_,fun other at_front spent => ?_,fun other member => ?_,?_⟩
  · rw [popped] at member
    exact stored other (by simp [queue,member])
  · rw [popped] at at_front
    exact absurd spent (left (List.mem_of_mem_head? at_front))
  · rw [popped] at member
    exact left (List.mem_of_mem_tail member)
  · rw [sentDatagrams_modify,queuedDatagrams_modify,← kept,unsentDatagrams,popped,unsentDatagrams_spent queue spent]

end Datagrams

end Host

namespace Sys

/-- The packets of all objects, and the logs of those that are gone or still to be made. -/
structure Whole (s : Sys) : Prop where
  udp : s.host.kind = .udpServer
  objects : ∀ p object, s.host.heap p = some object → s.host.Datagrams p s.worker.sending object
  unborn : ∀ p, s.host.nextPtr ≤ p → s.host.queuedDatagrams p = []
  sent : ∀ p, s.host.sentDatagrams p <+: s.host.queuedDatagrams p

namespace Whole

variable {s : Sys} {host : Host} {worker : Worker} {callers : List Caller} {stopCalled : Bool}

theorem kept (whole : s.Whole) (keeps : s.host.KeepsPackets host)
    (later : ∀ p, s.worker.sending = some p → worker.sending = some p) : Whole ⟨host,worker,callers,stopCalled⟩ := by
  refine ⟨keeps.kind.trans whole.udp,fun p object live => ?_,fun p fresh => ?_,fun p => ?_⟩
  · rcases keeps.objects p object live with ⟨old,live',same⟩ | ⟨fresh,made,empty⟩
    · exact ((whole.objects p old live').keep keeps same).weaken (later p)
    · have nothing := whole.unborn p fresh
      have none_sent : s.host.sentDatagrams p = [] := List.prefix_nil.mp (nothing ▸ whole.sent p)
      refine ⟨by simp [empty],by simp [empty],by simp [empty],?_⟩
      rw [keeps.sentDatagrams,keeps.queuedDatagrams,nothing,none_sent,Host.unsentDatagrams,empty]
      rfl
  · rw [keeps.queuedDatagrams]
    exact whole.unborn p (keeps.nextPtr.trans fresh)
  · rw [keeps.sentDatagrams,keeps.queuedDatagrams]
    exact whole.sent p

theorem change {p : Ptr} (whole : s.Whole) (object' : SocketObject) (made : p < s.host.nextPtr)
    (heap : host.heap = Function.update s.host.heap p (some object')) (nextPtr : host.nextPtr = s.host.nextPtr)
    (kind : host.kind = s.host.kind)
    (others : ∀ q, q ≠ p → host.sentDatagrams q = s.host.sentDatagrams q ∧ host.queuedDatagrams q = s.host.queuedDatagrams q)
    (later : ∀ q, q ≠ p → s.worker.sending = some q → worker.sending = some q)
    (holds : host.Datagrams p worker.sending object') : Whole ⟨host,worker,callers,stopCalled⟩ := by
  refine ⟨kind.trans whole.udp,fun q other live => ?_,fun q fresh => ?_,fun q => ?_⟩
  · by_cases same : q = p
    · subst same
      obtain rfl : object' = other := by simpa [heap] using live
      exact holds
    · obtain ⟨stored,front,rest,kept⟩ := whole.objects q other (by simpa [heap,same] using live)
      refine ⟨stored,fun packet at_front spent => later q same (front packet at_front spent),rest,?_⟩
      rw [(others q same).1,(others q same).2]
      exact kept
  · have fresh : s.host.nextPtr ≤ q := nextPtr.symm.trans_le fresh
    have differs : q ≠ p := fun same => absurd made (Nat.not_lt.mpr (same ▸ fresh))
    rw [(others q differs).2]
    exact whole.unborn q fresh
  · by_cases same : q = p
    · exact same ▸ ⟨_,holds.kept⟩
    · rw [(others q same).1,(others q same).2]
      exact whole.sent q

theorem written {p : Ptr} {ctx : Ctx} {packet : MsgPacket} {count : Nat} (whole : s.Whole) (call : s.SendCall)
    (at_w : s.worker = .sendPacket p ctx) (front : s.host.frontPacket p = some packet) (left : packet.size ≠ 0)
    (fits : s.host.fitsPacket packet.size (.ok count)) :
    Whole ⟨(s.host.handleSend p packet (.ok count)).1,.sendPacket p ctx,callers,stopCalled⟩ := by
  obtain ⟨object,rest,live,queue⟩ := Host.front_packet front
  obtain ⟨all,host⟩ := s.host.udp_written p whole.udp fits
  rw [host]
  refine whole.change (object.reduceFront count) (call.inv.below live) (by simp [Host.observe,Host.modify,live]) rfl rfl
    (fun q differs => ?_) (fun q differs sending => ?_) ((whole.objects p object live).write queue left all)
  · rw [Host.sentDatagrams_observe,Host.queuedDatagrams_observe]
    simp [Obs.sentDatagram,Obs.queuedDatagram,Ne.symm differs]
  · rw [at_w] at sending
    exact absurd (Option.some.inj sending).symm differs

theorem popped {p : Ptr} {ctx : Ctx} (whole : s.Whole) (call : s.SendCall) (at_w : s.worker = .popPacket p ctx) :
    Whole ⟨s.host.modify p SocketObject.popOutPacket,.sendLoop p ctx,callers,stopCalled⟩ := by
  obtain ⟨packet,front,spent⟩ := call.popping p ctx at_w
  obtain ⟨object,rest,live,queue⟩ := Host.front_packet front
  refine whole.change object.popOutPacket (call.inv.below live) (by simp [Host.modify,live]) rfl rfl (fun q _ => ⟨rfl,rfl⟩)
    (fun q differs sending => ?_) ((whole.objects p object live).pop queue spent none SocketObject.popOutPacket)
  rw [at_w] at sending
  exact absurd (Option.some.inj sending).symm differs

theorem moved {act : Act} (whole : s.Whole) (call : s.SendCall) (touched : Touched s.host s.worker act host worker)
    (taken : s.step act = some (s.moveTo host worker)) : Whole (s.moveTo host worker) := by
  cases touched with
  | kept keeps before after => exact whole.kept keeps (by simp [before])
  | written p ctx packet count at_w answered front left fits host worker =>
    subst host worker
    exact whole.written call at_w front left fits
  | failed p ctx code at_w answered host worker =>
    subst host worker answered
    obtain ⟨packet,front,left⟩ := write_left at_w taken
    obtain ⟨object,rest,live,queue⟩ := Host.front_packet front
    have holds := whole.objects p object live
    refine whole.change object (call.inv.below live) (Function.update_eq_self_iff.mpr live.symm).symm rfl rfl (fun q _ => ⟨rfl,rfl⟩)
      (fun q differs sending => ?_) ⟨holds.stored,fun other at_front spent => ?_,holds.rest,holds.kept⟩
    · rw [at_w] at sending
      exact absurd (Option.some.inj sending).symm differs
    · obtain rfl : packet = other := by simpa [queue] using at_front
      exact absurd spent left
  | emptied p ctx packet at_w front empty host worker =>
    subst host worker
    refine whole.kept (.refl s.host) (fun q sending => ?_)
    rw [at_w] at sending
    exact sending
  | popped p ctx at_w host worker =>
    subst host worker
    exact whole.popped call at_w

theorem step {next : Sys} {act : Act} (whole : s.Whole) (call : s.SendCall) (sizes : SendsStored act)
    (taken : s.step act = some next) : Whole next := by
  have called {host : Host} {callers : List Caller} {stopCalled : Bool} (keeps : s.host.KeepsPackets host) :
      Whole ⟨host,s.worker,callers,stopCalled⟩ := whole.kept keeps (fun _ => id)
  cases step_taken taken with
  | arrive conn kind listening => exact called (.of_same rfl rfl rfl rfl)
  | startAccept refused kind => exact called (.startAccept refused s.host)
  | sendRefused act sends => exact whole
  | sent act t sock addr raw buf p object sends kind idle found live valid room =>
    obtain ⟨some_bytes,small⟩ := sizes _ sends
    obtain ⟨to_addr,rfl⟩ := Option.isSome_iff_exists.mp (kind.mpr whole.udp)
    refine whole.change (object.push raw buf (some to_addr)).2 (call.inv.below live) (by simp [Host.observe,Host.modify,live]) rfl rfl
      (fun q differs => ?_) (fun _ _ => id) ((whole.objects p object live).push raw to_addr room some_bytes small _)
    rw [Host.sentDatagrams_observe,Host.queuedDatagrams_observe]
    simp [Obs.sentDatagram,Obs.queuedDatagram,Ne.symm differs]
  | disconnect t sock idle => exact called (.refl s.host)
  | limitIgnored sock num => exact whole
  | limitSet sock num p change kind found which =>
    refine called (.modify p change s.host (fun object => ?_))
    rcases which with rfl | rfl <;> rfl
  | connect t op addr idle offered => exact called (.refl s.host)
  | stop t idle outside first => exact called (.refl s.host)
  | caller t c reply host later found may call => exact called call.packets
  | worker act host worker idle move => exact whole.moved call move.touched taken

end Whole

theorem started_whole (config : Config) (udp : config.kind = .udpServer) : config.started.Whole :=
  ⟨udp,by simp [Config.started],by simp [Config.started,Host.queuedDatagrams],by simp [Config.started,Host.sentDatagrams]⟩

theorem run_whole {config : Config} {acts : List Act} {s : Sys} (run : Run config acts s) (udp : config.kind = .udpServer)
    (sizes : ∀ act ∈ acts, SendsStored act) : s.Whole :=
  (Transition.exec_invariant (I := fun s => s.SendCall ∧ s.Whole)
    (fun _ _ _ sizes both taken => ⟨both.1.step taken,both.2.step both.1 sizes taken⟩) (Transition.along_of_forall sizes)
      ⟨started_sendCall config,started_whole config udp⟩ run).2

/-- The datagrams that were sent come first among those that were accepted, and the queue holds the others. -/
theorem datagrams_whole {config : Config} {acts : List Act} {s : Sys} (run : Run config acts s)
    (udp : config.kind = .udpServer) (sizes : ∀ act ∈ acts, SendsStored act) (p : Ptr) :
    s.host.sentDatagrams p <+: s.host.queuedDatagrams p ∧
      ∀ object, s.host.heap p = some object →
        s.host.sentDatagrams p ++ Host.unsentDatagrams object = s.host.queuedDatagrams p ∧
        (s.worker.sending ≠ some p →
          s.host.sentDatagrams p ++ object.outPacketsQueue.map MsgPacket.datagram = s.host.queuedDatagrams p) := by
  have whole := run_whole run udp sizes
  refine ⟨whole.sent p,fun object live => ?_⟩
  have holds := whole.objects p object live
  exact ⟨holds.kept,fun idle => holds.unspent idle ▸ holds.kept⟩

/-- A socket of a `UdpServer` and a `UdpSend` on it for each datagram. -/
def datagramsQueued (datagrams : List (Sockaddr × List UInt8)) : List Act :=
  [.connect 1 .addUdpSocket [],.caller 1 (.fd 7),.caller 1 (.object .blank 0)] ++ List.replicate 4 (.caller 1 .done) ++
    datagrams.flatMap (fun d => [.udpSend 1 7 d.1 ⟨none,0,0,0,0,[]⟩ d.2,.caller 1 .done,.caller 1 .done])

/-- The worker finds the command of the first `UdpSend` and calls `HandleSend`. -/
def sendCommanded : List Act := [.epollPwait (.ok [(5,epollin)]),.worker,.worker,.beforeIo (.ok 0) 0]

theorem second_datagram_left :
    ∃ s object, Run (.plain .udpServer 2) (datagramsQueued [([9],[1,2]),([8],[3])] ++ sendCommanded ++ [.worker,.worker,.write (.ok 2),
        .worker,.worker,.worker,.write (.error eagain)]) s ∧ s.host.heap 0 = some object ∧
      s.host.sentDatagrams 0 = [(some [9],[1,2])] ∧
      s.host.sentDatagrams 0 ++ object.outPacketsQueue.map MsgPacket.datagram = s.host.queuedDatagrams 0 := by
  obtain ⟨s,run,live,sent,idle⟩ := run_reaches (.plain .udpServer 2) (datagramsQueued [([9],[1,2]),([8],[3])] ++ sendCommanded ++
    [.worker,.worker,.write (.ok 2),.worker,.worker,.worker,.write (.error eagain)])
    (fun s => (s.host.heap 0).isSome = true ∧ s.host.sentDatagrams 0 = [(some [9],[1,2])] ∧ s.worker.sending ≠ some 0)
      (by decide +kernel)
  obtain ⟨object,live⟩ := Option.isSome_iff_exists.mp live
  exact ⟨s,object,run,live,sent,((datagrams_whole run rfl (by decide +kernel) 0).2 object live).2 idle⟩

end Sys

end LightServer
