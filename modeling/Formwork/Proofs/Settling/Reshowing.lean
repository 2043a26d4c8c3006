import Formwork.Proofs.Settling.Presenting
import Formwork.Proofs.Settling.Resting

/-!
# Plans that take no value

A plan spares a control if carrying it out takes no value from it. Carrying out a plan that spares every
control, even one that names a control several times, decides anew what is in view and enabled and leaves
dependencies at rest. Any other plan leaves fewer controls filled in.
-/
namespace Formwork

/-- The control with another decision about whether it is in view and enabled. A control that is locked and
disabled stays disabled. -/
structure BoundControl.Reshown (b c : BoundControl) : Prop where
  names : c.names = b.names
  value : c.state.value = b.state.value
  locked : c.state.dependencyLocked = b.state.dependencyLocked
  disabled : b.state.dependencyLocked = true → b.state.disabled = true → c.state.disabled = true

theorem BoundControl.Reshown.refl (b : BoundControl) : b.Reshown b := ⟨rfl, rfl, rfl, fun _ disabled => disabled⟩

theorem BoundControl.Reshown.trans {a b c : BoundControl} (h : a.Reshown b) (h' : b.Reshown c) :
    a.Reshown c where
  names := h'.names.trans h.names
  value := h'.value.trans h.value
  locked := h'.locked.trans h.locked
  disabled := fun held disabled => h'.disabled (h.locked.trans held) (h.disabled held disabled)

/-- A control that loses no value is only shown anew. -/
theorem BoundControl.reshown_present {visible : Bool} {b : BoundControl}
    (kept : b.state.losesValue visible = false) : b.Reshown { b with state := b.state.present visible } := by
  have shown : b.state.present visible = Control.refreshEnabled { b.state with visible := visible } := by
    simp only [Control.present, kept, Bool.false_eq_true, if_false]
  refine ⟨rfl, ?_, ?_, fun held _ => ?_⟩
  · rw [shown]
    rfl
  · rw [shown]
    rfl
  · simp only [shown, Control.refreshEnabled, Control.shouldEnable, held, Bool.not_true, Bool.and_false,
      Bool.not_false]

namespace ControlSet

/-- Every control is shown anew. -/
def Reshown (s t : ControlSet) : Prop := List.Forall₂ BoundControl.Reshown s t

variable {s t u : ControlSet}

theorem Reshown.refl (s : ControlSet) : s.Reshown s := List.forall₂_same.2 fun b _ => .refl b

theorem Reshown.trans (h : s.Reshown t) (h' : t.Reshown u) : s.Reshown u :=
  forall₂_trans (fun _ _ _ => BoundControl.Reshown.trans) h h'

theorem Reshown.readings (h : s.Reshown t) : t.readings = s.readings := by
  refine map_of_forall₂ h fun b c shown => ?_
  obtain ⟨id, raw⟩ := Prod.mk.inj shown.names
  rw [BoundControl.reading, BoundControl.reading, id, raw, shown.value]

theorem Reshown.exists_get? (h : s.Reshown t) {id : String} {c : Control} (found : t.get? id = some c) :
    ∃ b : BoundControl, s.get? id = some b.state ∧ b.Reshown ⟨b.id, b.rawKey, c⟩ := by
  obtain ⟨x, hx⟩ : ∃ x, s.get? id = some x := by
    rw [exists_get?_iff, ← ids_congr h.readings, ← exists_get?_iff]
    exact ⟨c, found⟩
  obtain ⟨b, -, d, -, shown, -, rfl, found'⟩ :=
    exists_of_forall₂ h (fun _ _ shown => congrArg Prod.fst shown.names) hx
  obtain rfl := Option.some.inj (found'.symm.trans found)
  exact ⟨b, hx, rfl, shown.value, shown.locked, shown.disabled⟩

/-- Carrying out the entry of a plan takes no value from the control that it names. -/
def Spared (s : ControlSet) (e : String × Bool) : Prop := (s.get? e.1).any (Control.losesValue e.2) = false

theorem spared_congr (h : t.readings = s.readings) (e : String × Bool) : t.Spared e ↔ s.Spared e := by
  have told (u : ControlSet) :
      (u.get? e.1).any (Control.losesValue e.2) = (u.value? e.1).any fun v => !e.2 && v.isTruthy := by
    rw [value?, Option.any_map]
    rfl
  rw [Spared, Spared, told, told, value?_congr h]

end ControlSet

/-- Controls that are shown anew leave a dependency at rest. -/
theorem Refresh.AtRest.reshown {config : Config} {r : Refresh} {e : Dependency} {t : ControlSet}
    (h : AtRest config r e) (shown : r.controls.Reshown t) : AtRest config { r with controls := t } e := by
  intro rule c hrule found
  obtain ⟨b, found', again⟩ := shown.exists_get? found
  obtain ⟨rests, narrowed⟩ := h rule b.state hrule found'
  have parent : e.parentValue t = e.parentValue r.controls := by
    rw [Dependency.parentValue, Dependency.parentValue, ControlSet.value?_congr shown.readings]
  rw [parent]
  refine ⟨⟨again.locked.trans rests.locked, fun held => ?_, rests.narrowed, ?_⟩, narrowed⟩
  · have locked := again.locked.symm.trans held
    exact again.disabled locked (rests.disabled locked)
  · exact (congrArg _ again.value).trans rests.kept

namespace VisibilityPlan

variable {fields : List (String × Bool)} {acc : ControlSet × List String} {e : String × Bool}

/-- An entry by which no value is lost only shows the control anew. -/
theorem carryOut_of_spared (distinct : acc.1.ids.Nodup) (spared : acc.1.Spared e) :
    acc.1.Reshown (carryOut acc e).1 ∧ (carryOut acc e).2 = acc.2 := by
  constructor
  · rw [ControlSet.Reshown, carryOut, ControlSet.modify, List.forall₂_map_right_iff, List.forall₂_same]
    intro b hb
    by_cases here : b.id = e.1
    · rw [ControlSet.Spared, ← here, ControlSet.get?_of_mem distinct hb, Option.any_some] at spared
      rw [if_pos here]
      exact BoundControl.reshown_present spared
    · rw [if_neg here]
      exact .refl b
  · rw [ControlSet.Spared] at spared
    rw [carryOut, spared, if_neg Bool.false_ne_true, List.append_nil]

theorem foldl_carryOut_of_spared (acc : ControlSet × List String) (distinct : acc.1.ids.Nodup)
    (spared : ∀ e ∈ fields, acc.1.Spared e) :
    acc.1.Reshown (fields.foldl carryOut acc).1 ∧ (fields.foldl carryOut acc).2 = acc.2 := by
  induction fields generalizing acc with
  | nil => exact ⟨.refl acc.1, rfl⟩
  | cons e fields ih =>
    obtain ⟨first, rest⟩ := List.forall_mem_cons.1 spared
    obtain ⟨shown, unreported⟩ := carryOut_of_spared distinct first
    have distinct' : (carryOut acc e).1.ids.Nodup := by rwa [ControlSet.ids_congr shown.readings]
    have spared' : ∀ d ∈ fields, (carryOut acc e).1.Spared d := fun d hd =>
      (ControlSet.spared_congr shown.readings d).2 (rest d hd)
    obtain ⟨shown', unreported'⟩ := ih (carryOut acc e) distinct' spared'
    exact ⟨shown.trans shown', unreported'.trans unreported⟩

/-- An entry that leaves the readings as they are takes no value. -/
theorem spared_of_readings (h : (carryOut acc e).1.readings = acc.1.readings) : acc.1.Spared e := by
  cases found : acc.1.get? e.1 with
  | none => rw [ControlSet.Spared, found, Option.any_none]
  | some c =>
    have same := ControlSet.value?_congr h e.1
    rw [carryOut, ControlSet.value?, ControlSet.get?_modify_self, found, Option.map_some, Option.map_some,
      ControlSet.value?_of_get? found] at same
    rw [ControlSet.Spared, found, Option.any_some]
    exact Control.present_value_eq_iff.1 (Option.some.inj same)

theorem forall_spared_of_readings (h : (fields.foldl carryOut acc).1.readings = acc.1.readings) :
    ∀ e ∈ fields, acc.1.Spared e := by
  induction fields generalizing acc with
  | nil => exact fun _ he => absurd he List.not_mem_nil
  | cons e fields ih =>
    have first : (carryOut acc e).1.readings = acc.1.readings :=
      (carryOut_fades acc e).wanes.readings_eq_of_between
        (foldl_carryOut_fades fields (carryOut acc e)).wanes h
    refine List.forall_mem_cons.2 ⟨spared_of_readings first, fun d hd => ?_⟩
    exact (ControlSet.spared_congr first d).1 (ih (h.trans first.symm) d hd)

variable {p : VisibilityPlan} {controls : ControlSet}

/-- A plan that spares every control that it names only shows controls anew, and reports nothing. -/
theorem apply_of_spared (distinct : controls.ids.Nodup) (spared : ∀ e ∈ p.fields, controls.Spared e) :
    controls.Reshown (p.apply controls).1 ∧ (p.apply controls).2 = [] := by
  rw [apply_eq_foldl]
  exact foldl_carryOut_of_spared (controls, []) distinct spared

/-- A plan that leaves the readings as they are spares every control that it names. -/
theorem spared_of_apply (h : ControlSet.readings (p.apply controls).1 = controls.readings) :
    ∀ e ∈ p.fields, controls.Spared e := by
  rw [apply_eq_foldl] at h
  exact forall_spared_of_readings h

end VisibilityPlan

end Formwork
