import LightServer.Base.Run
import Mathlib.Order.WellFounded

/-! What a partial labelled step function can be brought to by actions of a given kind, and the rule of the
variant: a goal is reached where every state short of it has a way on that lowers a rank. -/
namespace Transition

variable {S A : Type} {step : S → A → Option S} {may also : A → Prop} {start s t u : S}

/-- Actions of the kind lead from `s` to `t`. -/
def Reaches (step : S → A → Option S) (may : A → Prop) (s t : S) : Prop :=
  ∃ acts, (∀ act ∈ acts, may act) ∧ exec step s acts = some t

namespace Reaches

theorem refl (s : S) : Reaches step may s s := ⟨[],by simp,rfl⟩

theorem single {act : A} (allowed : may act) (taken : step s act = some t) : Reaches step may s t :=
  ⟨[act],by simpa using allowed,by simp [taken]⟩

theorem trans (first : Reaches step may s t) (second : Reaches step may t u) : Reaches step may s u := by
  obtain ⟨early,allowed,run⟩ := first
  obtain ⟨late,later,goes_on⟩ := second
  refine ⟨early++late,fun act member => ?_,?_⟩
  · rcases List.mem_append.mp member with before | after
    · exact allowed act before
    · exact later act after
  · rw [exec_append,run]
    exact goes_on

theorem mono (weaker : ∀ act, may act → also act) (reaches : Reaches step may s t) : Reaches step also s t := by
  obtain ⟨acts,allowed,run⟩ := reaches
  exact ⟨acts,fun act member => weaker act (allowed act member),run⟩

/-- A run goes on to what its last state reaches. -/
theorem run {acts : List A} (reaches : Reaches step may s t) (run : exec step start acts = some s) :
    ∃ acts, exec step start acts = some t := by
  obtain ⟨later,_,goes_on⟩ := reaches
  refine ⟨acts++later,?_⟩
  rw [exec_append,run]
  exact goes_on

theorem invariant {I : S → Prop} (kept : ∀ state act next, I state → step state act = some next → I next)
    (reaches : Reaches step may s t) (start : I s) : I t := by
  obtain ⟨acts,_,run⟩ := reaches
  exact exec_invariant_free kept start run

/-- The rule of the variant. -/
theorem of_variant {α : Type} [Preorder α] [WellFoundedLT α] (rank : S → α) {I G : S → Prop}
    (progress : ∀ s, I s → ¬ G s → ∃ next, Reaches step may s next ∧ I next ∧ rank next < rank s) (inv : I s) :
    ∃ final, Reaches step may s final ∧ I final ∧ G final := by
  induction s using (InvImage.wf rank wellFounded_lt).induction with
  | h s ih =>
    by_cases goal : G s
    · exact ⟨s,refl s,inv,goal⟩
    · obtain ⟨next,reached,kept,lower⟩ := progress s inv goal
      obtain ⟨final,later,holds⟩ := ih next lower kept
      exact ⟨final,reached.trans later,holds⟩

end Reaches

end Transition
