import LightServer.DmReads

/-! Whole streams of packets: the frames that a caller gets from a stream, in whatever chunks it
comes, are those the format finds in it. -/
namespace LightServer

open DmFormat

/-- Rejected units and valid frames in any order, and the beginning of a message after them. -/
inductive Stream : List UInt8 → List (List UInt8) → List UInt8 → Prop
  | rest (bytes) (begun : Begun bytes) (open_yet : ¬ complete bytes) : Stream bytes [] bytes
  | skip (unit bytes frames rest) (rejected : RejectedUnit unit) (later : Stream bytes frames rest) : Stream (unit ++ bytes) frames rest
  | frame (frame bytes frames rest) (valid : ValidFrame frame) (later : Stream bytes frames rest) :
      Stream (frame ++ bytes) (frame::frames) rest

variable {bytes rest : List UInt8} {frames : List (List UInt8)}

theorem rejected_bytes {unit : List UInt8} (rejected : RejectedUnit unit) : unit ≠ [] := by
  rintro rfl
  cases rejected with
  | header _ size _ => cases size

theorem frame_bytes {frame : List UInt8} (valid : ValidFrame frame) : frame ≠ [] := by
  rintro rfl
  have done := (run_frame valid).2.1
  simp at done

theorem run_begun (begun : Begun bytes) (open_yet : ¬ complete bytes) : Incremental.run feed [] bytes = (bytes,[]) := by
  by_cases four : bytes.length < 4
  · exact (begun_nil.run_short (by decide) (show [].length + bytes.length < 4 by simpa using four)).1
  have header := begun.header (by omega)
  by_cases eight : bytes.length < 8
  · obtain ⟨ran,started,open'⟩ := run_header
    have parts : kMsgHeader ++ bytes.drop 4 = bytes := by rw [← header,List.take_append_drop]
    have early : kMsgHeader.length + (bytes.drop 4).length < bound kMsgHeader := by
      rw [bound,if_neg (by decide),if_pos (by decide),List.length_drop,show kMsgHeader.length = 4 from rfl]
      omega
    have kept := (started.run_short open' early).1
    rw [parts] at kept
    have ran' : Incremental.run feed [] (kMsgHeader ++ bytes.drop 4) = (bytes,[]) := by
      rw [Incremental.run_append,ran,kept]
      rfl
    rwa [parts] at ran'
  · obtain ⟨parts,size,word⟩ := length_parts header (by omega)
    obtain ⟨inside,within⟩ := begun.length (by omega)
    have first : (kMsgHeader ++ (bytes.drop 4).take 4).length = 8 := by simp [size,kMsgHeader]
    have value : stated (kMsgHeader ++ (bytes.drop 4).take 4) = stated bytes := by
      rw [← stated_append (bytes.drop 8) (Nat.le_of_eq first.symm),← parts]
    have ran := run_length size
    rw [word,if_pos (show InRange (loadWord (bytes.drop 4)).toNat from inside)] at ran
    have long := inRange_small inside
    have started : Begun (kMsgHeader ++ (bytes.drop 4).take 4) :=
      ⟨fun _ => rfl,fun _ => ⟨value ▸ inside,by rw [value,first]; omega⟩⟩
    have open' : ¬ complete (kMsgHeader ++ (bytes.drop 4).take 4) := fun done => by
      have same := done.2
      rw [value,first] at same
      omega
    have early : (kMsgHeader ++ (bytes.drop 4).take 4).length + (bytes.drop 8).length <
        bound (kMsgHeader ++ (bytes.drop 4).take 4) := by
      have short : bytes.length ≠ stated bytes := fun same => open_yet ⟨by omega,same⟩
      rw [bound,first,value,if_neg (by omega),if_neg (by omega),List.length_drop]
      omega
    have kept := (started.run_short open' early).1
    rw [← parts] at kept
    rw [parts,Incremental.run_append,ran,← parts]
    simp [kept]

/-- What a stream consists of is what the reader of the format makes of it. -/
theorem Stream.run (stream : Stream bytes frames rest) {state : List UInt8} (fresh : state = [] ∨ complete state) :
    ∃ next, Incremental.run feed state bytes = (next,frames) ∧ (if complete next then [] else next) = rest := by
  have same {bytes : List UInt8} (some_bytes : bytes ≠ []) : Incremental.run feed state bytes = Incremental.run feed [] bytes := by
    rcases fresh with rfl | done
    · rfl
    · exact run_complete done some_bytes
  induction stream generalizing state with
  | rest bytes begun open_yet =>
    by_cases none : bytes = []
    · subst none
      exact ⟨state,rfl,by rcases fresh with rfl | done <;> simp [*]⟩
    · exact ⟨bytes,by rw [same none,run_begun begun open_yet],if_neg open_yet⟩
  | skip unit bytes frames rest rejected later ih =>
    obtain ⟨next,ran,left⟩ := ih (.inl rfl) (fun _ => rfl)
    refine ⟨next,?_,left⟩
    rw [Incremental.run_append,same (rejected_bytes rejected),run_unit rejected]
    simp [ran]
  | frame frame bytes frames rest valid later ih =>
    obtain ⟨read,done⟩ := run_frame valid
    obtain ⟨next,ran,left⟩ := ih (.inr done) (fun some_bytes => run_complete done some_bytes)
    refine ⟨next,?_,left⟩
    rw [Incremental.run_append,same (frame_bytes valid),read]
    simp [ran]

theorem stream_units (units : List (List UInt8)) (rejected : ∀ unit ∈ units, RejectedUnit unit) (stream : Stream bytes frames rest) :
    Stream (units.flatten ++ bytes) frames rest := by
  induction units with
  | nil => exact stream
  | cons unit units ih =>
    rw [List.flatten_cons,List.append_assoc]
    exact .skip unit _ _ _ (rejected unit (by simp)) (ih (fun other member => rejected other (by simp [member])))

theorem stream_exists (bytes : List UInt8) : ∃ frames rest, Stream bytes frames rest := by
  induction size : bytes.length using Nat.strong_induction_on generalizing bytes with
  | _ size ih =>
    have holds := DmPacket.create_holds ⟨List.replicate 8 0,rfl⟩
    obtain ⟨result,out,next,_,call,_⟩ := dmPacketRead_call .zeroed holds bytes
    generalize count_eq : result.bRLen = count at call
    cases out with
    | none =>
      cases call with
      | all _ _ quiet =>
        obtain ⟨units,rejected,cut⟩ := run_units quiet
        obtain ⟨begun,open_yet⟩ := begun_nil.run_quiet (by decide) quiet
        rw [cut]
        exact ⟨[],next,stream_units units rejected (.rest next begun open_yet)⟩
    | some frame =>
      have inside := call.run.2
      obtain ⟨_,done,units,rejected,cut,valid⟩ := call_accepts call
      have taken : 0 < count := by
        have long := done.1
        have total := congrArg List.length cut
        rw [List.length_take,List.length_append] at total
        omega
      obtain ⟨frames,rest,later⟩ := ih (bytes.drop count).length (by rw [List.length_drop]; omega) (bytes.drop count) rfl
      rw [← List.take_append_drop count bytes,cut,List.append_assoc]
      exact ⟨_,rest,stream_units units rejected (.frame frame _ frames rest valid later)⟩

theorem Stream.read {raw : HeaderBuffer} {chunks frames' : List (List UInt8)} {last : DmPacket} (stream : Stream chunks.flatten frames rest)
    (fed : FedAll (.create raw) chunks frames' last) : frames' = frames ∧ last.unfinished = rest := by
  obtain ⟨state,ran,left⟩ := stream.run (.inl rfl)
  obtain ⟨next,blocks,kept⟩ := fed.blocks (DmPacket.create_holds raw)
  rw [blocks.run] at ran
  obtain ⟨rfl,rfl⟩ := Prod.mk.inj ran
  exact ⟨rfl,by rw [kept.unfinished,left]⟩

/-- A caller gets the frames of the stream, each once and in order, and the packet is left with the
message that has been begun; a stream has one such reading only. -/
theorem stream_read (raw : HeaderBuffer) (chunks : List (List UInt8)) :
    (∃ frames last, FedAll (.create raw) chunks frames last) ∧ (∃ frames rest, Stream chunks.flatten frames rest) ∧
      ∀ frames rest frames' last, Stream chunks.flatten frames rest → FedAll (.create raw) chunks frames' last →
        frames' = frames ∧ last.unfinished = rest :=
  ⟨fedAll_ends .zeroed (DmPacket.create_holds raw) chunks,stream_exists _,fun _ _ _ _ stream fed => stream.read fed⟩

theorem frames_stream (frames : List (List UInt8)) (valid : ∀ frame ∈ frames, ValidFrame frame) : Stream frames.flatten frames [] := by
  induction frames with
  | nil => exact .rest [] begun_nil (by decide)
  | cons frame frames ih =>
    rw [List.flatten_cons]
    exact .frame frame _ frames [] (valid frame (by simp)) (ih (fun other member => valid other (by simp [member])))

/-- Frames that are sent one after the other are read as they were sent, however the bytes come. -/
theorem frames_read {raw : HeaderBuffer} {sent received chunks : List (List UInt8)} {last : DmPacket}
    (valid : ∀ frame ∈ sent, ValidFrame frame) (same : chunks.flatten = sent.flatten) (fed : FedAll (.create raw) chunks received last) :
    received = sent ∧ last.unfinished = [] :=
  (same ▸ frames_stream sent valid).read fed

end LightServer
