import Formwork.Proofs.Settling.Following

/-!
# Controls that fade

Whether a control is locked, in view and enabled is decided anew in every round. All else about a control
stays as it is while the form is settled, unless the control is filled in and is emptied.
-/
namespace Formwork

/-- The control without its lock and without what a round decides anew. -/
def Control.bare (c : Control) : Control := c.unshown.hold false

theorem Control.value_eq_of_bare {c d : Control} (h : c.bare = d.bare) : c.value = d.value := by
  have values := congrArg Control.value h
  exact values

namespace BoundControl

/-- The control keeps its names, and apart from what is decided anew it stays as it is, or it was filled
in and is emptied. -/
def Fades (b c : BoundControl) : Prop :=
  c.id = b.id ∧ c.rawKey = b.rawKey ∧
    (c.state.bare = b.state.bare ∨ b.state.value.isFilled = true ∧ c.state.bare = b.state.clear.bare)

theorem Fades.refl (b : BoundControl) : b.Fades b := ⟨rfl, rfl, .inl rfl⟩

theorem Fades.wanes {b c : BoundControl} (h : b.Fades c) : b.Wanes c := by
  refine ⟨h.1, h.2.1, ?_⟩
  rcases h.2.2 with same | ⟨filled, emptied⟩
  · exact .inl (Control.value_eq_of_bare same)
  · exact .inr ⟨filled, Control.value_eq_of_bare emptied⟩

theorem Fades.trans {a b c : BoundControl} (h : a.Fades b) (h' : b.Fades c) : a.Fades c := by
  refine ⟨h'.1.trans h.1, h'.2.1.trans h.2.1, ?_⟩
  rcases h'.2.2 with same | ⟨filled, emptied⟩
  · rw [same]
    exact h.2.2
  · rcases h.2.2 with same | ⟨_, cleared⟩
    · have value := Control.value_eq_of_bare same
      refine .inr ⟨value ▸ filled, emptied.trans ?_⟩
      exact congrArg Control.clear same
    · rw [Control.value_eq_of_bare cleared] at filled
      have empty := Json.isFilled_emptied a.state.value
      exact absurd filled (by simp [Control.clear, Control.set, empty])

end BoundControl

namespace ControlSet

def Fades (s t : ControlSet) : Prop := List.Forall₂ BoundControl.Fades s t

variable {s t u : ControlSet}

theorem Fades.refl (s : ControlSet) : s.Fades s := List.forall₂_same.mpr fun b _ => .refl b

theorem Fades.wanes (h : s.Fades t) : s.Wanes t := List.Forall₂.imp (fun _ _ => BoundControl.Fades.wanes) h

theorem Fades.trans (h : s.Fades t) (h' : t.Fades u) : s.Fades u :=
  forall₂_trans (fun _ _ _ => BoundControl.Fades.trans) h h'

theorem fades_map {f : BoundControl → BoundControl} (h : ∀ b ∈ s, b.Fades (f b)) : s.Fades (s.map f) := by
  rw [Fades, List.forall₂_map_right_iff, List.forall₂_same]
  exact h

/-- What holds of every control before they fade and is kept by fading holds of every one afterwards. -/
theorem Fades.forall {P : BoundControl → Prop} (h : s.Fades t)
    (keeps : ∀ b c : BoundControl, b.Fades c → P b → P c) (each : ∀ b ∈ s, P b) : ∀ c ∈ t, P c := by
  induction h with
  | nil => exact each
  | @cons b c s t first _ ih =>
    obtain ⟨held, rest⟩ := List.forall_mem_cons.1 each
    exact List.forall_mem_cons.2 ⟨keeps b c first held, ih rest⟩

end ControlSet

end Formwork
