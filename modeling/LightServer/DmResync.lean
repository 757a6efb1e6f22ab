import LightServer.DmFraming

/-! What `DmPacketRead` makes of a frame that comes after other bytes. It takes the stream in groups
of four, and does not look for a header that begins inside a group. -/
namespace LightServer

open DmFormat

/-- The header occurs in `bytes` at this offset. -/
def HeaderAt (bytes : List UInt8) (offset : Nat) : Prop := (bytes.drop offset).take 4 = kMsgHeader

instance (bytes : List UInt8) (offset : Nat) : Decidable (HeaderAt bytes offset) := inferInstanceAs (Decidable (_ = _))

/-- `DmPacketRead` returns true, and this is the packet. -/
def Finds (alloc : Allocator) (packet : DmPacket) (buf frame : List UInt8) : Prop :=
  ∃ count next, dmPacketRead alloc packet buf = some ⟨true,count,next⟩ ∧ next.frame = frame

theorem headerAt_append (before bytes : List UInt8) (offset : Nat) :
    HeaderAt (before ++ bytes) (before.length+offset) ↔ HeaderAt bytes offset := by
  rw [HeaderAt,HeaderAt,← List.drop_drop,List.drop_left]

theorem units_length (units : List (List UInt8)) (rejected : ∀ unit ∈ units, RejectedUnit unit) (rest : List UInt8)
    (none : ∀ offset, offset < units.flatten.length → ¬ HeaderAt (units.flatten ++ rest) offset) : 4 ∣ units.flatten.length := by
  induction units with
  | nil => simp
  | cons unit units ih =>
    have later : 4 ∣ units.flatten.length := by
      apply ih (fun other member => rejected other (by simp [member]))
      intro offset inside found
      apply none (unit.length+offset)
      · simpa using inside
      · rw [List.flatten_cons,List.append_assoc]
        exact (headerAt_append unit _ offset).mpr found
    have first (more : List UInt8) (starts : unit = kMsgHeader ++ more) : False := by
      apply none 0
      · simp [starts,kMsgHeader]
      · simp [HeaderAt,starts,kMsgHeader]
    rw [List.flatten_cons,List.length_append]
    cases rejected unit (by simp) with
    | header _ size _ => omega
    | length length _ _ => exact (first length rfl).elim
    | frame length rest _ _ _ _ => exact (first (length ++ rest) (List.append_assoc _ _ _)).elim

/-- Groups of four bytes without a header are rejected one by one. -/
theorem groups_rejected (g : List UInt8) (groups : 4 ∣ g.length) (none : ∀ offset, offset < g.length → ¬ HeaderAt g offset) :
    ∃ units : List (List UInt8), (∀ unit ∈ units, RejectedUnit unit) ∧ units.flatten = g := by
  obtain ⟨count,size⟩ := groups
  induction count generalizing g with
  | zero => exact ⟨[],by simp,(List.length_eq_zero_iff.mp size).symm⟩
  | succ count ih =>
    have group : (g.take 4).length = 4 := by simp; omega
    obtain ⟨units,rejected,same⟩ := ih (g.drop 4) (by
      intro offset inside found
      rw [List.length_drop] at inside
      apply none (4+offset) (by omega)
      rwa [HeaderAt,← List.drop_drop]) (by rw [List.length_drop]; omega)
    refine ⟨g.take 4::units,?_,by rw [List.flatten_cons,same,List.take_append_drop]⟩
    intro unit member
    rcases List.mem_cons.mp member with rfl | member
    · exact .header _ group (none 0 (by omega))
    · exact rejected unit member

/-- Other bytes and then a frame whose header is the first: the frame is found exactly if the other
bytes are whole groups. -/
theorem frame_found_iff (alloc : Allocator) (raw : HeaderBuffer) (g f : List UInt8) (range : InRange f.length)
    (valid : isDmPacketValid f f.length = true) (first : ∀ offset, offset < g.length → ¬ HeaderAt (g ++ f) offset) :
    Finds alloc (.create raw) (g ++ f) f ↔ 4 ∣ g.length := by
  obtain ⟨header,length,_,_⟩ := (isDmPacketValid_tests f f.length).mp valid
  obtain ⟨stops,_⟩ := dmPacketRead_accepts alloc raw (g ++ f)
  have long := range.1
  constructor
  · rintro ⟨count,packet,found⟩
    obtain ⟨inside,units,rejected,cut,_⟩ := (stops count f).mp ⟨packet,found⟩
    have total := congrArg List.length cut
    simp only [List.length_take,List.length_append] at total inside
    have whole : g ++ f = units.flatten ++ (f ++ (g ++ f).drop count) := by
      rw [← List.append_assoc,← cut,List.take_append_drop]
    have starts : HeaderAt (g ++ f) units.flatten.length := by
      rw [whole]
      apply (headerAt_append units.flatten _ 0).mpr
      rw [HeaderAt,List.drop_zero,List.take_append_of_le_length (by omega),header]
    have start : units.flatten.length = g.length := by
      have late := first units.flatten.length
      by_contra other
      exact late (by omega) starts
    rw [← start]
    apply units_length units rejected (f ++ (g ++ f).drop count)
    rw [← whole,start]
    exact first
  · intro groups
    have inner (offset : Nat) (inside : offset < g.length) : ¬ HeaderAt g offset := by
      intro found
      apply first offset inside
      have size := congrArg List.length found
      simp only [List.length_take,kMsgHeader,List.length_cons,List.length_nil] at size
      rw [HeaderAt,List.drop_append_of_le_length (by omega),List.take_append_of_le_length (by omega)]
      exact found
    obtain ⟨units,rejected,same⟩ := groups_rejected g groups inner
    have stated_length : stated f = f.length := length
    have frame : ValidFrame f :=
      (isDmPacketValid_iff header (stated_length ▸ range) stated_length.symm).mp (stated_length ▸ valid)
    have accepts : Accepts ((g ++ f).take (g ++ f).length) f :=
      ⟨units,rejected,by rw [List.take_length,same],frame⟩
    obtain ⟨packet,found⟩ := (stops _ f).mpr ⟨le_refl _,accepts⟩
    exact ⟨_,packet,found⟩

theorem frame_after_group_found : Finds .zeroed (.create ⟨List.replicate 8 0,rfl⟩) ([0,0,0,0] ++ emptyFrame) emptyFrame :=
  (frame_found_iff .zeroed _ [0,0,0,0] emptyFrame (by decide) (by decide +kernel) (by decide)).mpr (by decide)

/-- The header is spread over two groups. -/
theorem frame_after_byte_missed :
    InRange emptyFrame.length ∧ isDmPacketValid emptyFrame emptyFrame.length = true ∧
      (∀ offset, offset < 1 → ¬ HeaderAt ([0] ++ emptyFrame) offset) ∧
      ¬ Finds .zeroed (.create ⟨List.replicate 8 0,rfl⟩) ([0] ++ emptyFrame) emptyFrame := by
  refine ⟨by decide,by decide +kernel,by decide,?_⟩
  rintro ⟨count,next,found,_⟩
  have missed : (dmPacketRead .zeroed (.create ⟨List.replicate 8 0,rfl⟩) ([0] ++ emptyFrame)).map ReadResult.rs = some false := by
    decide +kernel
  rw [found] at missed
  simp at missed

end LightServer
