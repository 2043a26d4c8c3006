import Formwork.Proofs.Settling.Waning
import Formwork.Proofs.Value.Likeness
import Formwork.Proofs.Visibility.Placements

/-!
# Forms with like values

Where the controls of two forms have the same names and like values, the same fields are to be in view.
-/
namespace Formwork

def BoundControl.Alike (b c : BoundControl) : Prop :=
  c.id = b.id ∧ c.rawKey = b.rawKey ∧ b.state.value.Alike c.state.value

def ControlSet.Alike (s t : ControlSet) : Prop := List.Forall₂ BoundControl.Alike s t

namespace ControlSet.Alike

variable {s t : ControlSet} (h : s.Alike t)

include h

theorem names : s.map BoundControl.names = t.map BoundControl.names :=
  (map_of_forall₂ h fun _ _ alike => Prod.ext alike.1 alike.2.1).symm

theorem ids : s.ids = t.ids := ids_of_names h.names

/-- A control is there in both or in none, and in both it has like values. -/
theorem value? (id : String) : (s.value? id = none ∧ t.value? id = none) ∨
    ∃ v w, s.value? id = some v ∧ t.value? id = some w ∧ v.Alike w := by
  cases found : s.get? id with
  | none =>
    refine .inl ⟨value?_eq_none_iff.2 found, value?_eq_none_iff.2 ?_⟩
    rwa [get?_eq_none_iff, ← h.ids, ← get?_eq_none_iff]
  | some x =>
    obtain ⟨b, -, c, -, alike, -, rfl, found'⟩ := exists_of_forall₂ h (fun _ _ h => h.1) found
    exact .inr ⟨_, _, value?_of_get? found, value?_of_get? found', alike.2.2⟩

theorem holds (scope : Scope) (c : Condition) : c.holds s scope = c.holds t scope := by
  unfold Condition.holds Condition.subject?
  cases c.fieldId.filter fun id => !Text.isBlankText id with
  | none => rfl
  | some raw =>
    rw [Option.bind_some, Option.bind_some, resolve?_of_names h.names]
    cases t.resolve? raw scope with
    | none => rfl
    | some id =>
      rw [Option.bind_some, Option.bind_some]
      rcases h.value? id with ⟨none, none'⟩ | ⟨v, w, found, found', alike⟩
      · rw [none, none']
      · rw [found, found']
        exact alike.accepts c

theorem allHold (scope : Scope) (l : List Condition) :
    Condition.allHold s scope l = Condition.allHold t scope l := by
  cases l with
  | nil => rfl
  | cons first rest =>
    have joined : Condition.join s scope = Condition.join t scope := by
      funext before c
      simp only [Condition.join, h.holds]
    rw [Condition.allHold, Condition.allHold, joined, h.holds]

/-- The same fields are to be in view. -/
theorem isShown (p : Placement) : p.isShown s = p.isShown t := by
  have allows : Group.allows s = Group.allows t := by
    funext g
    rw [Group.allows, Group.allows, h.allHold]
  rw [Placement.isShown, Placement.isShown, allows, h.allHold]

end ControlSet.Alike

end Formwork
