import LightServer.DmFraming

/-! Calls of `DmPacketRead` on the packets that earlier calls and resets can leave. Each call ends,
and its iterations account for the bytes it takes. -/
namespace LightServer

open DmFormat

namespace DmPacket

/-- The packets that a caller can have. -/
inductive Reachable : DmPacket → Prop
  | create (raw) : Reachable (create raw)
  | reset (packet) (earlier : Reachable packet) : Reachable packet.reset
  | read (alloc packet buf result) (earlier : Reachable packet) (call : dmPacketRead alloc packet buf = some result) :
      Reachable result.packet

/-- The whole message is in `p_buf_`. -/
def Completed (packet : DmPacket) : Prop := pkgDataPos ≤ packet.pos ∧ packet.remainLen = 0

instance (packet : DmPacket) : Decidable packet.Completed := inferInstanceAs (Decidable (_ ∧ _))

/-- The part of a message that the next byte is added to. -/
def unfinished (packet : DmPacket) : List UInt8 := if packet.Completed then [] else packet.buffered

variable {packet : DmPacket} {bytes : List UInt8}

theorem Reachable.holds (reachable : Reachable packet) : ∃ bytes, packet.Holds bytes := by
  induction reachable with
  | create raw => exact ⟨[],create_holds raw⟩
  | reset packet earlier ih =>
    obtain ⟨bytes,holds⟩ := ih
    exact ⟨[],holds.reset⟩
  | read alloc packet buf result earlier call ih =>
    obtain ⟨bytes,holds⟩ := ih
    obtain ⟨other,out,next,returned,_,_,kept,_⟩ := dmPacketRead_call alloc holds buf
    obtain rfl := Option.some.inj (returned.symm.trans call)
    exact ⟨next,kept⟩

theorem Holds.completed_iff (holds : Holds packet bytes) : packet.Completed ↔ complete bytes := by
  rw [Completed,holds.pos,pkgDataPos,pkgLengthSize,pkgHeaderSize,complete]
  apply and_congr_right
  intro enough
  have inside := (holds.begun.length enough).2
  rw [(holds.late enough).2.1]
  omega

theorem Holds.unfinished (holds : Holds packet bytes) : packet.unfinished = if complete bytes then [] else bytes := by
  simp only [DmPacket.unfinished,holds.completed_iff,holds.buffered]

end DmPacket

theorem run_suffix (bytes input : List UInt8) : (Incremental.run feed bytes input).1 <:+ bytes ++ input := by
  have settled (bytes : List UInt8) : (settle bytes).1 <:+ bytes := by
    unfold settle
    split_ifs <;> simp
  induction input generalizing bytes with
  | nil => simp [Incremental.run]
  | cons byte input ih =>
    have first : (feed bytes byte).1 <:+ bytes ++ [byte] := by
      apply (settled _).trans
      split_ifs <;> simp
    have later := (ih (feed bytes byte).1).trans (List.suffix_append_self_iff.mpr first)
    simpa [Incremental.run] using later

theorem open_call_last {bytes input next frame : List UInt8} {count : Nat} (begun : Begun bytes) (open_yet : ¬ complete bytes)
    (call : Incremental.Call feed bytes input (some frame) count next) :
    frame <:+ bytes ++ input.take count ∧ 0 < count ∧ input[count-1]? = frame.getLast? := by
  obtain ⟨before,middle,byte,taken,quiet,rfl,_⟩ := begun.call_stops open_yet call
  have size := congrArg List.length taken
  rw [List.length_take,Nat.min_eq_left call.run.2,List.length_append,List.length_singleton] at size
  refine ⟨?_,by omega,?_⟩
  · have kept := run_suffix bytes before
    rw [quiet] at kept
    rw [taken,← List.append_assoc]
    exact List.suffix_append_self_iff.mpr kept
  · have last : (input.take count)[count-1]? = input[count-1]? := List.getElem?_take_of_lt (by omega)
    rw [← last,taken,size,Nat.add_sub_cancel,List.getElem?_concat_length,List.getLast?_concat]

/-- The last byte of a frame is the last one that the call takes. -/
theorem call_last {bytes input next frame : List UInt8} {count : Nat} (begun : Begun bytes)
    (call : Incremental.Call feed bytes input (some frame) count next) :
    frame <:+ (if complete bytes then [] else bytes) ++ input.take count ∧ 0 < count ∧ input[count-1]? = frame.getLast? := by
  by_cases done : complete bytes
  · rw [if_pos done]
    exact open_call_last begun_nil (by decide) (call.congr (fun byte => (feed_complete done byte).symm) call.some_left)
  · rw [if_neg done]
    exact open_call_last begun done call

namespace Reader

/-- `after` is what an iteration that takes some of the input leaves. -/
def Takes (before after : Reader) : Prop :=
  ∃ size, 0 < size ∧ size ≤ before.rxBuf.length ∧ after.rxBuf = before.rxBuf.drop size ∧ after.bRLen = before.bRLen+size

/-- `after` is what an iteration that resets a completed packet leaves; it takes none of the input. -/
def Resets (before after : Reader) : Prop :=
  before.packet.Completed ∧ after.packet = before.packet.reset ∧ after.rxBuf = before.rxBuf ∧ after.bRLen = before.bRLen

/-- The iterations of a loop that ends, each by the state it begins in. -/
inductive Iterations (alloc : Allocator) : Reader → List Reader → Bool × Reader → Prop
  | ended (r) (spent : r.rxBuf = []) : Iterations alloc r [] (false,r)
  | found (r next) (left : r.rxBuf ≠ []) (step : r.iteration alloc = (true,next)) : Iterations alloc r [r] (true,next)
  | again (r next later done) (left : r.rxBuf ≠ []) (step : r.iteration alloc = (false,next))
      (rest : Iterations alloc next later done) : Iterations alloc r (r::later) done

variable {alloc : Allocator} {r : Reader} {bytes : List UInt8}

theorem Iterations.head {states : List Reader} {done : Bool × Reader} (iterations : Iterations alloc r states done)
    (left : r.rxBuf ≠ []) : states[0]? = some r := by
  cases iterations with
  | ended _ spent => exact absurd spent left
  | found _ _ _ _ => rfl
  | again _ _ _ _ _ _ _ => rfl

theorem loop_iterations {fuel : Nat} {done : Bool × Reader} (ended : loop alloc fuel r = some done) :
    ∃ states, Iterations alloc r states done := by
  induction fuel generalizing r with
  | zero =>
    by_cases spent : r.rxBuf = []
    · rw [loop,if_pos spent] at ended
      obtain rfl := Option.some.inj ended
      exact ⟨[],.ended r spent⟩
    · simp [loop,spent] at ended
  | succ fuel ih =>
    by_cases spent : r.rxBuf = []
    · rw [loop,if_pos spent] at ended
      obtain rfl := Option.some.inj ended
      exact ⟨[],.ended r spent⟩
    · rw [loop,if_neg spent] at ended
      generalize step : r.iteration alloc = stepped at ended
      obtain ⟨found,next⟩ := stepped
      cases found with
      | true =>
        obtain rfl := Option.some.inj ended
        exact ⟨[r],.found r next spent step⟩
      | false =>
        obtain ⟨states,rest⟩ := ih ended
        exact ⟨r::states,.again r next states done spent step rest⟩

theorem iteration_completed (completed : r.packet.Completed) : r.iteration alloc = (false,r.advance r.len r.packet.reset) := by
  obtain ⟨late,spent⟩ := completed
  have later : pkgHeaderSize ≤ pkgDataPos := by decide
  rw [iteration,if_neg (by omega),if_neg (by omega),if_neg (by omega)]

/-- An iteration on a message that is not complete takes a byte or more; it leaves such a message, or a frame. -/
theorem iteration_takes (alloc : Allocator) (holds : r.packet.Holds bytes) (open_yet : ¬ complete bytes) (left : r.rxBuf ≠ []) :
    r.Takes (r.iteration alloc).2 ∧ ((r.iteration alloc).1 = false →
      ∃ next, (r.iteration alloc).2.packet.Holds next ∧ ¬ complete next) := by
  rcases iteration_steps alloc holds left with ⟨done,_⟩ | ⟨_,size,packet,positive,fits,within,stepped,kept⟩
  · contradiction
  · rw [stepped]
    refine ⟨⟨size,positive,fits,rfl,rfl⟩,fun none => ⟨_,kept,?_⟩⟩
    have taken : (r.rxBuf.take size).length = size := by rw [List.length_take,Nat.min_eq_left fits]
    have call := holds.begun.call_block open_yet (show r.rxBuf.take size ≠ [] by simp [left]; omega) (by omega)
    have quiet := call.run.1
    rw [List.take_of_length_le (Nat.le_refl _),Option.not_isSome_iff_eq_none.mp (Bool.eq_false_iff.mp none)] at quiet
    exact (holds.begun.run_quiet open_yet quiet).2

/-- An iteration that finds no frame leaves a message that is not complete. -/
theorem iteration_open (alloc : Allocator) (holds : r.packet.Holds bytes) (left : r.rxBuf ≠ [])
    (none : (r.iteration alloc).1 = false) : ∃ next, (r.iteration alloc).2.packet.Holds next ∧ ¬ complete next := by
  by_cases done : complete bytes
  · rw [iteration_completed (holds.completed_iff.mpr done)]
    exact ⟨[],holds.reset,by decide⟩
  · exact (iteration_takes alloc holds done left).2 none

theorem Iterations.takes {states : List Reader} {done : Bool × Reader} (iterations : Iterations alloc r states done)
    (holds : r.packet.Holds bytes) (open_yet : ¬ complete bytes) :
    ∀ state ∈ states, state.Takes (state.iteration alloc).2 := by
  induction iterations generalizing bytes with
  | ended r spent => simp
  | found r next left step =>
    intro state member
    rw [List.mem_singleton.mp member]
    exact (iteration_takes alloc holds open_yet left).1
  | again r next later done left step rest ih =>
    obtain ⟨takes,kept⟩ := iteration_takes alloc holds open_yet left
    rw [step] at kept
    obtain ⟨bytes',holds',open'⟩ := kept rfl
    intro state member
    rcases List.mem_cons.mp member with rfl | member
    · exact takes
    · exact ih holds' open' state member

/-- The first iteration resets a packet that is complete, and every other one takes a byte or more. -/
theorem Iterations.progress {states : List Reader} {done : Bool × Reader} (iterations : Iterations alloc r states done)
    (holds : r.packet.Holds bytes) (none_yet : r.len = 0) :
    ∀ index state, states[index]? = some state → state.Takes (state.iteration alloc).2 ∨
      index = 0 ∧ state = r ∧ state.Resets (state.iteration alloc).2 := by
  by_cases done_yet : complete bytes
  · have completed := holds.completed_iff.mpr done_yet
    have stepped : r.iteration alloc = _ := iteration_completed completed
    cases iterations with
    | ended r spent => simp
    | found r next left step => simp [stepped] at step
    | again r next later done left step rest =>
      obtain rfl := (Prod.mk.inj (step.symm.trans stepped)).2
      intro index state at_index
      cases index with
      | zero =>
        obtain rfl := Option.some.inj at_index
        exact .inr ⟨rfl,rfl,by rw [stepped]; exact ⟨completed,rfl,by simp [advance,none_yet],by simp [advance,none_yet]⟩⟩
      | succ index =>
        exact .inl (rest.takes holds.reset (by decide) state (List.mem_of_getElem? at_index))
  · intro index state at_index
    exact .inl (iterations.takes holds done_yet state (List.mem_of_getElem? at_index))

end Reader

variable {packet : DmPacket}

/-- Each call ends. It takes the whole of its input, or the part up to the last byte of the frame that it
has completed; each of its iterations takes a byte or more, but for one that resets a completed packet. -/
theorem dmPacketRead_accounts (reachable : packet.Reachable) (alloc : Allocator) (buf : List UInt8) :
    ∃ result states last, dmPacketRead alloc packet buf = some result ∧
      Reader.Iterations alloc ⟨packet,buf,0,0⟩ states (result.rs,last) ∧
      result.bRLen = last.bRLen ∧ result.packet = last.packet ∧
      (result.rs = false → result.bRLen = buf.length) ∧
      (result.rs = true → result.bRLen ≤ buf.length ∧ 0 < result.bRLen ∧ result.packet.Completed ∧
        result.packet.frame <:+ packet.unfinished ++ buf.take result.bRLen ∧
        buf[result.bRLen-1]? = result.packet.frame.getLast?) ∧
      ∀ index state, states[index]? = some state → state.Takes (state.iteration alloc).2 ∨
        index = 0 ∧ state = ⟨packet,buf,0,0⟩ ∧ state.Resets (state.iteration alloc).2 := by
  obtain ⟨bytes,holds⟩ := reachable.holds
  obtain ⟨result,out,next,returned,call,found,kept,same⟩ := dmPacketRead_call alloc holds buf
  obtain ⟨⟨rs,last⟩,ended,parts⟩ := Option.map_eq_some_iff.mp returned
  obtain rfl := parts
  obtain ⟨states,iterations⟩ := Reader.loop_iterations ended
  refine ⟨_,states,last,returned,iterations,rfl,rfl,?_,?_,iterations.progress holds rfl⟩
  · intro nothing
    obtain rfl : out = none := Option.not_isSome_iff_eq_none.mp (by rw [← found]; simpa using nothing)
    exact call.takes_all
  · intro something
    obtain ⟨frame,rfl⟩ := Option.isSome_iff_exists.mp (found.symm.trans something)
    obtain ⟨rfl,whole⟩ := holds.begun.call_complete call
    obtain ⟨kept_part,some_taken,ends⟩ := call_last holds.begun call
    rw [same _ rfl,holds.unfinished]
    exact ⟨call.run.2,some_taken,kept.completed_iff.mpr whole,kept_part,ends⟩

/-- A byte that comes after a frame, where the caller has not reset the packet: the first iteration resets it. -/
theorem byte_after_frame_accounted :
    ∃ first second states last, dmPacketRead .zeroed (.create ⟨List.replicate 8 0,rfl⟩) emptyFrame = some first ∧
      first.rs = true ∧ first.bRLen = 16 ∧ first.packet.Completed ∧ first.packet.frame = emptyFrame ∧
      dmPacketRead .zeroed first.packet [0x5b] = some second ∧ second.rs = false ∧ second.bRLen = 1 ∧
      Reader.Iterations .zeroed ⟨first.packet,[0x5b],0,0⟩ states (second.rs,last) ∧
      ∃ state, states[0]? = some state ∧ state.Resets (state.iteration .zeroed).2 := by
  obtain ⟨first,_,_,returned,_,_,_,_,found,_⟩ := dmPacketRead_accounts (.create ⟨List.replicate 8 0,rfl⟩) .zeroed emptyFrame
  obtain ⟨second,states,last,returned',iterations,_,_,whole,_,progress⟩ :=
    dmPacketRead_accounts (.read _ _ _ _ (.create _) returned) .zeroed [0x5b]
  have read : (dmPacketRead .zeroed (.create ⟨List.replicate 8 0,rfl⟩) emptyFrame).map
      (fun first => (first.rs,first.bRLen,first.packet.frame)) = some (true,16,emptyFrame) := by decide +kernel
  have again : (dmPacketRead .zeroed (.create ⟨List.replicate 8 0,rfl⟩) emptyFrame).bind
      (fun first => (dmPacketRead .zeroed first.packet [0x5b]).map ReadResult.rs) = some false := by decide +kernel
  simp only [returned,Option.map_some,Option.some.injEq,Prod.mk.injEq] at read
  simp only [returned,Option.bind_some,returned',Option.map_some,Option.some.injEq] at again
  obtain ⟨stopped,taken,frame⟩ := read
  have completed := (found stopped).2.2.1
  have reset : Reader.iteration .zeroed ⟨first.packet,[0x5b],0,0⟩ = _ := Reader.iteration_completed completed
  have here := iterations.head (by simp)
  refine ⟨first,second,states,last,returned,stopped,taken,completed,frame,returned',again,whole again,iterations,_,here,?_⟩
  rcases progress 0 _ here with ⟨size,positive,_,_,advanced⟩ | ⟨_,_,resets⟩
  · simp only [reset,Reader.advance] at advanced
    omega
  · exact resets

end LightServer
