import LightServer.Base.RateLimit
import LightServer.Machine

/-! The limits on what `HandleReceive` hands over to `DoRead`. The counter of a window has 32 bits, and
it counts the blocks that are withheld too. -/
namespace LightServer

open RateLimit

namespace SocketObject

/-- The members that make up the limit of an object. -/
def limitMembers (object : SocketObject) : Bool × UInt32 × UInt32 × UInt32 × UInt32 × UInt64 :=
  (object.fReceiveLimit,object.maxRxPacketsPerSecond,object.maxRxBytesPerSecond,object.rxPacketsCount,object.rxBytesCount,
    object.lastRxTimeMs)

end SocketObject

namespace Host

/-- The blocks that a `HandleReceive` reads for an object, with whatever else happens that leaves the limit of
the object alone. The window of a block is what `last_rx_time_ms_` is after it; it has passed if `DoRead` gets it. -/
inductive Receives (limiter : Limiter) (weigh : Nat → Nat) (p : Ptr) : Host → List Entry → Prop
  | done (h) : Receives limiter weigh p h []
  | other (h next entries)
      (kept : (next.heap p).map SocketObject.limitMembers = (h.heap p).map SocketObject.limitMembers)
      (later : Receives limiter weigh p next entries) : Receives limiter weigh p h entries
  | block (h addr sock bytes timeMs object passed entries) (some_bytes : bytes ≠ [])
      (counted : (h.receiveIteration limiter addr p sock (.ok bytes) timeMs).1.heap p = some object)
      (handed : (h.receiveIteration limiter addr p sock (.ok bytes) timeMs).1.log =
        h.log ++ .received p bytes :: if passed then [.doRead p sock bytes addr] else [])
      (later : Receives limiter weigh p (h.receiveIteration limiter addr p sock (.ok bytes) timeMs).1 entries) :
      Receives limiter weigh p h (⟨weigh bytes.length,timeMs.toNat,object.lastRxTimeMs.toNat,passed⟩::entries)

/-- What a block does to an object that has a limit. -/
theorem receive_block {count : Nat → UInt64 → SocketObject → SocketObject} (addr : Option Sockaddr) {p : Ptr} (sock : SOCKET)
    {bytes : List UInt8} (timeMs : UInt64) {h : Host} {object : SocketObject} (some_bytes : bytes ≠ [])
    (at_p : h.heap p = some object) (limited : object.isReceiveLimit = true)
    (still : (count bytes.length timeMs object).isReceiveLimit = true) :
    (h.receiveIteration (some count) addr p sock (.ok bytes) timeMs).1.heap p = some (count bytes.length timeMs object) ∧
      (h.receiveIteration (some count) addr p sock (.ok bytes) timeMs).1.log = h.log ++ .received p bytes ::
        if !(count bytes.length timeMs object).isReceiveOverflow then [.doRead p sock bytes addr] else [] := by
  obtain ⟨byte,rest,rfl⟩ := List.exists_cons_of_ne_nil some_bytes
  generalize taken_eq : ({h with rxBuffer := (byte::rest) ++ h.rxBuffer.drop (byte::rest).length}).observe
    (.received p (byte::rest)) = taken
  have taken_heap : taken.heap p = some object := by
    rw [← taken_eq]
    exact at_p
  have taken_log : taken.log = h.log ++ [.received p (byte::rest)] := by rw [← taken_eq]; rfl
  have taken_buf : taken.rxBuffer.take (byte::rest).length = byte::rest := by
    rw [← taken_eq]
    exact List.take_left
  have counted_heap : (taken.modify p (count (byte::rest).length timeMs)).heap p =
      some (count (byte::rest).length timeMs object) := by
    change Function.update taken.heap p ((taken.heap p).map (count (byte::rest).length timeMs)) p = _
    rw [Function.update_self,taken_heap,Option.map_some]
  have counted : taken.countReceived (some count) p (byte::rest).length timeMs =
      taken.modify p (count (byte::rest).length timeMs) := by
    simp only [countReceived,taken_heap]
    exact if_pos limited
  simp only [receiveIteration,taken_eq,counted,isOverLimit,counted_heap,Option.elim_some,still,Option.isSome_some,Bool.true_and]
  cases (count (byte::rest).length timeMs object).isReceiveOverflow with
  | true => exact ⟨counted_heap,taken_log⟩
  | false =>
    refine ⟨counted_heap,?_⟩
    change taken.log ++ [.doRead p sock (taken.rxBuffer.take (byte::rest).length) addr] = _
    rw [taken_log,taken_buf,List.append_assoc]
    rfl

/-- A counter of an object, and what a `Count...` function does to it where the object is `armed` with `limit`. -/
structure Meter (limit : UInt32) (count : Nat → UInt64 → SocketObject → SocketObject) (weigh : Nat → Nat)
    (armed : SocketObject → Prop) (counter : SocketObject → UInt32) : Prop where
  limited (object) : armed object → object.isReceiveLimit = true
  overflow (object) : armed object → object.isReceiveOverflow = decide (limit < counter object)
  kept (object other) : armed object → other.limitMembers = object.limitMembers → armed other ∧ counter other = counter object
  counts (object rc timeMs) : armed object → armed (count rc timeMs object) ∧
    if timeMs - object.lastRxTimeMs ≥ 1*1000 then
      (count rc timeMs object).lastRxTimeMs = timeMs ∧ counter (count rc timeMs object) = UInt32.ofNat (weigh rc)
    else (count rc timeMs object).lastRxTimeMs = object.lastRxTimeMs ∧
      counter (count rc timeMs object) = counter object+UInt32.ofNat (weigh rc)

variable {limit : UInt32} {count : Nat → UInt64 → SocketObject → SocketObject} {weigh : Nat → Nat}
  {armed : SocketObject → Prop} {counter : SocketObject → UInt32} {p : Ptr} {h : Host} {entries : List Entry}

/-- An object counts as the limiter does whose counter is the total modulo 2^32. -/
structure Metered (armed : SocketObject → Prop) (counter : SocketObject → UInt32) (object : SocketObject) (s : State) : Prop where
  armed : armed object
  counter : counter object = UInt32.ofNat s.total
  start : object.lastRxTimeMs.toNat = s.start

theorem Meter.next (meter : Meter limit count weigh armed counter) {object : SocketObject} {s : State}
    (metered : Metered armed counter object s) (rc : Nat) (timeMs : UInt64) (begun : s.start ≤ timeMs.toNat) :
    Metered armed counter (count rc timeMs object) (s.next 1000 (weigh rc) timeMs.toNat) := by
  obtain ⟨still,counted⟩ := meter.counts object rc timeMs metered.armed
  have order : object.lastRxTimeMs ≤ timeMs := UInt64.le_iff_toNat_le.mpr (metered.start ▸ begun)
  have late_iff : timeMs - object.lastRxTimeMs ≥ 1*1000 ↔ s.start+1000 ≤ timeMs.toNat := by
    rw [ge_iff_le,UInt64.le_iff_toNat_le,UInt64.toNat_sub_of_le _ _ order,metered.start]
    change 1000 ≤ _ ↔ _
    omega
  obtain ⟨late,next⟩ | ⟨soon,next⟩ := State.next_cases 1000 (weigh rc) timeMs.toNat s
  · rw [if_pos (late_iff.mpr late)] at counted
    rw [next]
    exact ⟨still,counted.2,congrArg UInt64.toNat counted.1⟩
  · rw [if_neg (fun late => absurd (late_iff.mp late) (by omega))] at counted
    rw [next]
    refine ⟨still,?_,(congrArg UInt64.toNat counted.1).trans metered.start⟩
    rw [counted.2,metered.counter,UInt32.ofNat_add]

theorem Meter.receives (meter : Meter limit count weigh armed counter) (receives : Receives (some count) weigh p h entries)
    {object : SocketObject} {s : State} (at_p : h.heap p = some object) (metered : Metered armed counter object s)
    (begun : ∀ entry ∈ entries, s.start ≤ entry.time) (sorted : entries.Pairwise (fun entry later => entry.time ≤ later.time)) :
    Counts 1000 (fun total => decide (total % 2^32 ≤ limit.toNat)) s entries := by
  induction receives generalizing object s with
  | done h => exact .nil s
  | other h next entries kept later ih =>
    rw [at_p,Option.map_some] at kept
    obtain ⟨other,at_p',same⟩ := Option.map_eq_some_iff.mp kept
    obtain ⟨still,value⟩ := meter.kept object other metered.armed same
    have start : other.lastRxTimeMs = object.lastRxTimeMs := congrArg (fun members => members.2.2.2.2.2) same
    exact ih at_p' ⟨still,value.trans metered.counter,start ▸ metered.start⟩ begun sorted
  | block h addr sock bytes timeMs counted_object passed entries some_bytes counted handed later ih =>
    obtain ⟨first,rest_sorted⟩ := List.pairwise_cons.mp sorted
    have next := meter.next metered bytes.length timeMs (begun _ List.mem_cons_self)
    obtain ⟨at_p',logged⟩ := receive_block addr sock timeMs some_bytes at_p
      (meter.limited object metered.armed) (meter.limited _ next.armed)
    obtain rfl := Option.some.inj (at_p'.symm.trans counted)
    have decided : passed = decide ((s.next 1000 (weigh bytes.length) timeMs.toNat).total % 2^32 ≤ limit.toNat) := by
      have same := List.cons.inj (List.append_cancel_left (handed.symm.trans logged))
      have beyond : (count bytes.length timeMs object).isReceiveOverflow =
          decide (limit.toNat < (s.next 1000 (weigh bytes.length) timeMs.toNat).total % 2^32) := by
        rw [meter.overflow _ next.armed,next.counter]
        simp only [UInt32.lt_iff_toNat_lt,UInt32.toNat_ofNat']
      rw [beyond,← decide_not] at same
      simp only [Nat.not_lt] at same
      cases passed with
      | true => simpa using same.2
      | false => simpa using same.2
    have begun_next := (s.next_around (show 0 < 1000 by decide) (weigh bytes.length) (begun _ List.mem_cons_self)).1
    rw [decided,next.start]
    exact .cons s _ _ entries (ih at_p' next (fun entry member => begun_next.trans (first entry member)) rest_sorted)

/-- What passes in a window is within the limit, and what passes in a second is within twice the limit. -/
def WithinLimit (limit : Nat) (entries : List Entry) : Prop :=
  (∀ start, passedIn start entries ≤ limit) ∧ ∀ first, passedWithin first (first+1000) entries ≤ 2*limit

/-- The limit holds of every window that the counter has room for, and of every second that meets no other windows. -/
def WithinCounter (limit : Nat) (entries : List Entry) : Prop :=
  (∀ start, received start entries < 2^32 → passedIn start entries ≤ limit) ∧
    ∀ first, (∀ entry ∈ entries, first ≤ entry.time → entry.time ≤ first+1000 → received entry.start entries < 2^32) →
      passedWithin first (first+1000) entries ≤ 2*limit

theorem WithinCounter.withinLimit {limit : Nat} {entries : List Entry} (within : WithinCounter limit entries)
    (small : ∀ start, received start entries < 2^32) : WithinLimit limit entries :=
  ⟨fun start => within.1 start (small start),fun first => within.2 first (fun entry _ _ _ => small entry.start)⟩

/-- Where a block does not pass, more than the limit has come in its window with it. -/
def WithheldAbove (limit : Nat) (entries : List Entry) : Prop :=
  ∀ before entry after, entries = before ++ entry::after → entry.passed = false →
    limit < received entry.start (before ++ [entry])

/-- The limit holds from where it is set on, as long as the counter has room for what comes in a window. -/
theorem Meter.limits (meter : Meter limit count weigh armed counter) (receives : Receives (some count) weigh p h entries)
    {object : SocketObject} (at_p : h.heap p = some object) (set : armed object) (unused : object.lastRxTimeMs = 0)
    (sorted : entries.Pairwise (fun entry later => entry.time ≤ later.time)) (begun : ∀ entry ∈ entries, 1000 ≤ entry.time) :
    WithheldAbove limit.toNat entries ∧ WithinCounter limit.toNat entries := by
  have from_zero : ∀ entry ∈ entries, 0 ≤ entry.time := fun entry _ => Nat.zero_le _
  have counts := meter.receives receives (s := ⟨0,(counter object).toNat⟩) at_p
    ⟨set,(UInt32.ofNat_toNat).symm,by rw [unused]; rfl⟩ from_zero sorted
  -- no block comes in the window that the limit was set in
  have started : ∀ entry ∈ entries, entry.start ≠ 0 := fun entry member => by
    have time := counts.times (by decide) from_zero sorted entry member
    have late := begun entry member
    omega
  have within (entry : Entry) (member : entry ∈ entries) (small : received entry.start entries < 2^32) (total : Nat)
      (come : total ≤ (if entry.start = 0 then (counter object).toNat else 0)+received entry.start entries)
      (passes : decide (total % 2^32 ≤ limit.toNat) = true) : total ≤ limit.toNat := by
    rw [if_neg (started entry member),Nat.zero_add] at come
    rwa [decide_eq_true_eq,Nat.mod_eq_of_lt (come.trans_lt small)] at passes
  refine ⟨?_,fun start small => ?_,fun first small => ?_⟩
  · intro before entry after parts withheld
    have decided := counts.decided (by decide) parts
    have member : entry ∈ entries := parts ▸ List.mem_append_right before List.mem_cons_self
    rw [withheld,if_neg (started entry member),Nat.zero_add] at decided
    have beyond := of_decide_eq_false decided.symm
    have wrapped := Nat.mod_le (received entry.start (before ++ [entry])) (2^32)
    omega
  · refine counts.one_window_le (by decide) _ (fun entry _ selected => ?_) (fun entry _ another _ selected selected' => ?_)
      (fun entry member selected => ?_)
    · exact (Bool.and_eq_true_iff.mp selected).1
    · simp only [Bool.and_eq_true,decide_eq_true_eq] at selected selected'
      exact selected.2.trans selected'.2.symm
    · simp only [Bool.and_eq_true,decide_eq_true_eq] at selected
      exact within entry member (selected.2 ▸ small)
  · exact counts.passedWithin_le (by decide) from_zero sorted first
      (fun entry member after by_then => within entry member (small entry member after by_then))

theorem bytes_meter (positive : 0 < limit) :
    Meter limit (fun rc timeMs => SocketObject.countReceivedBytes (UInt32.ofNat rc) timeMs) (fun rc => rc)
      (fun object => object.fReceiveLimit = true ∧ object.maxRxBytesPerSecond = limit ∧ object.maxRxPacketsPerSecond = 0)
      SocketObject.rxBytesCount where
  limited object armed := armed.1
  overflow object armed := by simp [SocketObject.isReceiveOverflow,armed.2.1,armed.2.2,positive]
  kept object other armed same := by
    simp only [SocketObject.limitMembers,Prod.mk.injEq] at same
    obtain ⟨flag,packets,bytes,_,count,_⟩ := same
    exact ⟨⟨flag.trans armed.1,bytes.trans armed.2.1,packets.trans armed.2.2⟩,count⟩
  counts object rc timeMs armed := by
    unfold SocketObject.countReceivedBytes
    split
    · exact ⟨armed,rfl,UInt32.zero_add _⟩
    · exact ⟨armed,rfl,rfl⟩

theorem packet_meter (positive : 0 < limit) :
    Meter limit (fun _ timeMs => SocketObject.countReceivedPacket 1 timeMs) (fun _ => 1)
      (fun object => object.fReceiveLimit = true ∧ object.maxRxBytesPerSecond = 0 ∧ object.maxRxPacketsPerSecond = limit)
      SocketObject.rxPacketsCount where
  limited object armed := armed.1
  overflow object armed := by simp [SocketObject.isReceiveOverflow,armed.2.1,armed.2.2,positive]
  kept object other armed same := by
    simp only [SocketObject.limitMembers,Prod.mk.injEq] at same
    obtain ⟨flag,packets,bytes,count,_⟩ := same
    exact ⟨⟨flag.trans armed.1,bytes.trans armed.2.1,packets.trans armed.2.2⟩,count⟩
  counts object rc timeMs armed := by
    unfold SocketObject.countReceivedPacket
    split
    · exact ⟨armed,rfl,UInt32.zero_add _⟩
    · exact ⟨armed,rfl,rfl⟩

/-- Bytes and datagrams are withheld where they exceed the limit, and what passes in a window or in a second is within it
unless the counter of that window, or of one that the second meets, wraps round. -/
theorem receive_limited (positive : 0 < limit) (object : SocketObject)
    (sorted : entries.Pairwise (fun entry later => entry.time ≤ later.time)) (begun : ∀ entry ∈ entries, 1000 ≤ entry.time) :
    (h.heap p = some (object.setReceiveBytesLimit limit) → Receives TcpClient.limiter (fun rc => rc) p h entries →
      WithheldAbove limit.toNat entries ∧ WithinCounter limit.toNat entries) ∧
    (h.heap p = some (object.setReceivePacketLimit limit) → Receives UdpServer.limiter (fun _ => 1) p h entries →
      WithheldAbove limit.toNat entries ∧ WithinCounter limit.toNat entries) := by
  constructor
  · intro at_p receives
    exact (bytes_meter positive).limits receives at_p ⟨decide_eq_true positive,if_pos positive,rfl⟩ rfl sorted begun
  · intro at_p receives
    exact (packet_meter positive).limits receives at_p ⟨decide_eq_true positive,rfl,if_pos positive⟩ rfl sorted begun

/-- A client with one object that takes so many bytes in a second. -/
def limitedTo (limit : UInt32) : Host :=
  {(Config.plain .tcpClient 0).started.host with
    heap := fun p => if p = 0 then some (SocketObject.blank.setReceiveBytesLimit limit) else none}

/-- Two bytes in a second, where one is the limit. -/
theorem second_byte_withheld : ∃ entries, Receives TcpClient.limiter (fun rc => rc) 0 (limitedTo 1) entries ∧
    entries = [⟨1,1000,1000,true⟩,⟨1,1500,1000,false⟩] ∧ WithheldAbove 1 entries ∧ WithinLimit 1 entries := by
  have receives : Receives TcpClient.limiter (fun rc => rc) 0 (limitedTo 1) [⟨1,1000,1000,true⟩,⟨1,1500,1000,false⟩] :=
    .block (limitedTo 1) none 3 [7] 1000 ((SocketObject.blank.setReceiveBytesLimit 1).countReceivedBytes 1 1000) true _
      (by simp) rfl rfl (.block _ none 3 [8] 1500
        (((SocketObject.blank.setReceiveBytesLimit 1).countReceivedBytes 1 1000).countReceivedBytes 1 1500) false []
        (by simp) rfl rfl (.done _))
  obtain ⟨withheld,within⟩ :=
    (receive_limited (show (0 : UInt32) < 1 by decide) SocketObject.blank (by decide) (by decide)).1 rfl receives
  refine ⟨_,receives,rfl,withheld,within.withinLimit (fun start => ?_)⟩
  rw [received_cons,received_cons,received_nil]
  split <;> decide

/-- A limit that the counter cannot exceed: each block passes. -/
theorem receives_unlimited {object : SocketObject} (at_p : h.heap p = some object) (set : object.fReceiveLimit = true)
    (bytes_limit : object.maxRxBytesPerSecond = 0xffffffff) (packet_limit : object.maxRxPacketsPerSecond = 0)
    (window : object.lastRxTimeMs = 0 ∨ object.lastRxTimeMs = 1000) (count : Nat) :
    Receives TcpClient.limiter (fun rc => rc) p h (List.replicate count ⟨1024,1000,1000,true⟩) := by
  obtain ⟨bytes,size⟩ : ∃ bytes : List UInt8, bytes.length = 1024 := ⟨List.replicate 1024 0,List.length_replicate⟩
  induction count generalizing h object with
  | zero => exact .done h
  | succ count ih =>
    generalize after_eq : object.countReceivedBytes (UInt32.ofNat bytes.length) 1000 = after
    have begun : after.lastRxTimeMs = 1000 := by
      rcases window with zero | same
      · rw [← after_eq,SocketObject.countReceivedBytes,zero,if_pos (by decide)]
      · rw [← after_eq,SocketObject.countReceivedBytes,same,if_neg (by decide)]
        exact same
    have kept : after.fReceiveLimit = true ∧ after.maxRxBytesPerSecond = 0xffffffff ∧ after.maxRxPacketsPerSecond = 0 := by
      rw [← after_eq,SocketObject.countReceivedBytes]
      split <;> exact ⟨set,bytes_limit,packet_limit⟩
    have under : after.isReceiveOverflow = false := by
      have room := after.rxBytesCount.toNat_lt
      have most : ¬ (0xffffffff : UInt32) < after.rxBytesCount := by
        rw [UInt32.lt_iff_toNat_lt]
        change ¬ 2^32-1 < _
        omega
      simp [SocketObject.isReceiveOverflow,kept.2.1,kept.2.2,most]
    have some_bytes : bytes ≠ [] := fun none => by simp [none] at size
    obtain ⟨counted,handed⟩ := @receive_block (fun rc timeMs => SocketObject.countReceivedBytes (UInt32.ofNat rc) timeMs)
      none p 0 bytes 1000 h object some_bytes at_p set (by rw [after_eq]; exact kept.1)
    rw [after_eq] at counted handed
    rw [under] at handed
    have later := ih counted kept.1 kept.2.1 kept.2.2 (.inr begun)
    have next : Receives TcpClient.limiter (fun rc => rc) p h
        (⟨bytes.length,UInt64.toNat 1000,after.lastRxTimeMs.toNat,true⟩::List.replicate count ⟨1024,1000,1000,true⟩) :=
      .block h none 0 bytes 1000 after true _ some_bytes counted handed later
    rwa [begun,size] at next

/-- 4 GiB in one window, in blocks that fit the buffer. -/
theorem full_counter_exceeds : ∃ entries, Receives TcpClient.limiter (fun rc => rc) 0 (limitedTo 0xffffffff) entries ∧
    entries.Pairwise (fun entry later => entry.time ≤ later.time) ∧ (∀ entry ∈ entries, 1000 ≤ entry.time) ∧
    (∀ entry ∈ entries, 0 < entry.weight ∧ entry.weight ≤ TcpClient.kSocketRxBufferSize) ∧ ¬ WithinLimit 0xffffffff entries := by
  refine ⟨List.replicate (2^22) ⟨1024,1000,1000,true⟩,receives_unlimited rfl rfl rfl rfl (.inl rfl) _,?_,?_,?_,?_⟩
  · exact List.pairwise_replicate.mpr (.inr (Nat.le_refl _))
  · intro entry member
    rw [List.eq_of_mem_replicate member]
  · intro entry member
    rw [List.eq_of_mem_replicate member]
    decide
  · intro within
    have bounded := within.1 1000
    rw [passedIn,weightOf_replicate _ _ rfl] at bounded
    exact absurd bounded (by decide)

end Host

end LightServer
