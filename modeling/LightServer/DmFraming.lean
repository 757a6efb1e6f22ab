import LightServer.DmPacketRead

/-! What `DmPacketRead` accepts, and that the cuts between the chunks of a stream do not matter. -/
namespace LightServer

open DmFormat

/-- The frames of a caller that calls again on what is left of a chunk each time it gets one. -/
inductive Fed : DmPacket → List UInt8 → List (List UInt8) → DmPacket → Prop
  | last (alloc packet buf count next) (call : dmPacketRead alloc packet buf = some ⟨false,count,next⟩) : Fed packet buf [] next
  | again (alloc packet buf count middle frames next) (call : dmPacketRead alloc packet buf = some ⟨true,count,middle⟩)
      (rest : Fed middle (buf.drop count) frames next) : Fed packet buf (middle.frame::frames) next

/-- The frames of a stream that comes in chunks. -/
inductive FedAll : DmPacket → List (List UInt8) → List (List UInt8) → DmPacket → Prop
  | nil (packet) : FedAll packet [] [] packet
  | cons (packet chunk middle frames chunks frames' next) (fed : Fed packet chunk frames middle)
      (rest : FedAll middle chunks frames' next) : FedAll packet (chunk::chunks) (frames++frames') next

variable {packet last : DmPacket} {bytes buf : List UInt8} {frames : List (List UInt8)}

/-- `DmPacketRead` returns, and it is a call of the reader of the format. -/
theorem dmPacketRead_call (alloc : Allocator) (holds : packet.Holds bytes) (buf : List UInt8) :
    ∃ result out next, dmPacketRead alloc packet buf = some result ∧ Incremental.Call feed bytes buf out result.bRLen next ∧
      result.rs = out.isSome ∧ result.packet.Holds next ∧ ∀ frame ∈ out, result.packet.frame = frame := by
  obtain ⟨rs,last,out,count,next,ended,call,found,read,kept⟩ :=
    Reader.loop_call alloc (buf.length+1) (r := ⟨packet,buf,0,0⟩) holds (Nat.le_succ _) (fun _ => ⟨Nat.lt_succ_self _,rfl⟩)
  refine ⟨⟨rs,last.bRLen,last.packet⟩,out,next,by rw [dmPacketRead,ended]; rfl,?_,found,kept,?_⟩
  · rw [Nat.zero_add] at read
    exact read ▸ call
  · rintro frame rfl
    obtain ⟨rfl,done⟩ := holds.begun.call_complete call
    exact kept.frame done

/-- It returns true where rejected units and a frame are all that it has taken, and false if there is no such place. -/
theorem dmPacketRead_accepts (alloc : Allocator) (raw : HeaderBuffer) (s : List UInt8) :
    (∀ k frame, (∃ packet, dmPacketRead alloc (.create raw) s = some ⟨true,k,packet⟩ ∧ packet.frame = frame) ↔
      k ≤ s.length ∧ Accepts (s.take k) frame) ∧
    ((¬ ∃ k frame, k ≤ s.length ∧ Accepts (s.take k) frame) →
      ∃ packet, dmPacketRead alloc (.create raw) s = some ⟨false,s.length,packet⟩) := by
  obtain ⟨⟨rs,count,packet⟩,out,next,returned,call,found,_,same⟩ := dmPacketRead_call alloc (DmPacket.create_holds raw) s
  rw [returned]
  constructor
  · intro k frame
    constructor
    · rintro ⟨packet',stopped,rfl⟩
      obtain ⟨rfl,rfl,rfl⟩ := ReadResult.mk.inj (Option.some.inj stopped)
      obtain ⟨frame,rfl⟩ := Option.isSome_iff_exists.mp found.symm
      rw [same frame rfl]
      exact ⟨call.run.2,(call_accepts call).2.2⟩
    · rintro ⟨inside,accepts⟩
      obtain ⟨rfl,taken⟩ := accepts_call call inside accepts
      change count = k at taken
      subst taken
      change rs = true at found
      subst found
      exact ⟨packet,rfl,same frame rfl⟩
  · intro nowhere
    cases out with
    | none =>
      change rs = false at found
      subst found
      cases call with
      | all _ _ _ => exact ⟨packet,rfl⟩
    | some frame => exact absurd ⟨count,frame,call.run.2,(call_accepts call).2.2⟩ nowhere

theorem Fed.calls (fed : Fed packet buf frames last) (holds : packet.Holds bytes) :
    ∃ next, Incremental.Calls feed bytes buf frames next ∧ last.Holds next := by
  induction fed generalizing bytes with
  | last alloc packet buf count next call =>
    obtain ⟨result,out,state,returned,called,found,kept,_⟩ := dmPacketRead_call alloc holds buf
    obtain rfl := Option.some.inj (returned.symm.trans call)
    obtain rfl : out = none := Option.isSome_eq_false_iff.mp found.symm |> Option.isNone_iff_eq_none.mp
    exact ⟨state,.last _ _ _ _ called,kept⟩
  | again alloc packet buf count middle frames next call rest ih =>
    obtain ⟨result,out,state,returned,called,found,kept,same⟩ := dmPacketRead_call alloc holds buf
    obtain rfl := Option.some.inj (returned.symm.trans call)
    obtain ⟨frame,rfl⟩ := Option.isSome_iff_exists.mp found.symm
    obtain ⟨last,calls,kept'⟩ := ih kept
    rw [same frame rfl]
    exact ⟨last,.again _ _ _ _ _ _ _ called calls,kept'⟩

theorem FedAll.blocks {chunks : List (List UInt8)} (fed : FedAll packet chunks frames last) (holds : packet.Holds bytes) :
    ∃ next, Incremental.Blocks feed bytes chunks frames next ∧ last.Holds next := by
  induction fed generalizing bytes with
  | nil packet => exact ⟨bytes,.nil bytes,holds⟩
  | cons packet chunk middle frames chunks frames' next fed rest ih =>
    obtain ⟨state,calls,kept⟩ := fed.calls holds
    obtain ⟨last,blocks,kept'⟩ := ih kept
    exact ⟨last,.cons _ _ _ _ _ _ _ calls blocks,kept'⟩

/-- The caller comes to the end of a chunk: a call that returns true has taken a byte. -/
theorem fed_ends (alloc : Allocator) (holds : packet.Holds bytes) (buf : List UInt8) :
    ∃ frames last next, Fed packet buf frames last ∧ last.Holds next := by
  induction size : buf.length using Nat.strong_induction_on generalizing packet bytes buf with
  | _ size ih =>
    obtain ⟨⟨rs,count,middle⟩,out,state,returned,called,found,kept,_⟩ := dmPacketRead_call alloc holds buf
    cases out with
    | none =>
      change rs = false at found
      subst found
      exact ⟨[],middle,state,.last alloc packet buf count middle returned,kept⟩
    | some frame =>
      change rs = true at found
      subst found
      have taken : 0 < count := by
        cases called
        omega
      have inside : count ≤ buf.length := called.run.2
      obtain ⟨frames,last,next,fed,kept'⟩ := ih (buf.drop count).length (by rw [List.length_drop]; omega) kept
        (buf.drop count) rfl
      exact ⟨_,last,next,.again alloc packet buf count middle frames last returned fed,kept'⟩

theorem fedAll_ends (alloc : Allocator) (holds : packet.Holds bytes) (chunks : List (List UInt8)) :
    ∃ frames last, FedAll packet chunks frames last := by
  induction chunks generalizing packet bytes with
  | nil => exact ⟨[],packet,.nil packet⟩
  | cons chunk chunks ih =>
    obtain ⟨frames,middle,state,fed,kept⟩ := fed_ends alloc holds chunk
    obtain ⟨frames',last,rest⟩ := ih kept
    exact ⟨_,last,.cons packet chunk middle frames chunks frames' last fed rest⟩

theorem DmPacket.Holds.same_state {other : DmPacket} (holds : packet.Holds bytes) (holds' : other.Holds bytes) :
    packet.pos = other.pos ∧ packet.len = other.len ∧ packet.remainLen = other.remainLen ∧ packet.buffered = other.buffered := by
  refine ⟨holds.pos.trans holds'.pos.symm,?_,?_,holds.buffered.trans holds'.buffered.symm⟩
  · by_cases early : bytes.length < 8
    · exact (holds.early early).2.1.trans (holds'.early early).2.1.symm
    · exact (holds.late (by omega)).1.trans (holds'.late (by omega)).1.symm
  · by_cases early : bytes.length < 8
    · exact (holds.early early).2.2.1.trans (holds'.early early).2.2.1.symm
    · exact (holds.late (by omega)).2.1.trans (holds'.late (by omega)).2.1.symm

/-- Two ways of cutting a stream lead to the same frames and the same state of the reader. -/
theorem chunks_irrelevant (raw raw' : HeaderBuffer) (chunks chunks' : List (List UInt8))
    (same : chunks.flatten = chunks'.flatten) :
    (∃ frames last, FedAll (.create raw) chunks frames last) ∧ (∃ frames last, FedAll (.create raw') chunks' frames last) ∧
    ∀ frames frames' last last', FedAll (.create raw) chunks frames last → FedAll (.create raw') chunks' frames' last' →
      frames = frames' ∧ last.pos = last'.pos ∧ last.len = last'.len ∧ last.remainLen = last'.remainLen ∧
        last.buffered = last'.buffered := by
  have holds := DmPacket.create_holds raw
  have holds' := DmPacket.create_holds raw'
  refine ⟨fedAll_ends .zeroed holds chunks,fedAll_ends .zeroed holds' chunks',?_⟩
  intro frames frames' last last' fed fed'
  obtain ⟨next,blocks,kept⟩ := fed.blocks holds
  obtain ⟨next',blocks',kept'⟩ := fed'.blocks holds'
  have runs := blocks.run
  rw [same,blocks'.run] at runs
  obtain ⟨rfl,rfl⟩ := Prod.mk.inj runs
  exact ⟨rfl,kept.same_state kept'⟩

/-- A stream of two frames, cut in a header and in a length; the packet is not reset between them. -/
theorem cut_frames_irrelevant :
    ∃ last last', FedAll (.create ⟨List.replicate 8 0,rfl⟩)
        [emptyFrame.take 3,emptyFrame.drop 3++emptyFrame.take 6,emptyFrame.drop 6] [emptyFrame,emptyFrame] last ∧
      FedAll (.create ⟨List.replicate 8 0,rfl⟩) [emptyFrame++emptyFrame] [emptyFrame,emptyFrame] last' ∧
      last.pos = last'.pos ∧ last.len = last'.len ∧ last.remainLen = last'.remainLen ∧ last.buffered = last'.buffered := by
  obtain ⟨⟨frames,last,fed⟩,⟨frames',last',fed'⟩,agree⟩ :=
    chunks_irrelevant ⟨List.replicate 8 0,rfl⟩ ⟨List.replicate 8 0,rfl⟩
      [emptyFrame.take 3,emptyFrame.drop 3++emptyFrame.take 6,emptyFrame.drop 6] [emptyFrame++emptyFrame] rfl
  obtain ⟨rfl,states⟩ := agree _ _ _ _ fed fed'
  obtain ⟨next,blocks,_⟩ := fed'.blocks (DmPacket.create_holds _)
  have read : (Incremental.run feed [] (emptyFrame++emptyFrame)).2 = [emptyFrame,emptyFrame] := by decide +kernel
  obtain rfl : frames = [emptyFrame,emptyFrame] := by
    have ran := congrArg Prod.snd blocks.run
    exact ran.symm.trans read
  exact ⟨last,last',fed,fed',states⟩

end LightServer
