import Formwork.Proofs.Settling.Refreshing

/-!
# What carrying out a visibility plan does

A plan that names each control once presents every control on its own: it comes into view or goes out
of view, and in the latter case it loses a value that counts. What it looks like afterwards does not
depend on what it looked like before.
-/
namespace Formwork

theorem Json.isFilled_of_isTruthy {v : Json} (h : v.isTruthy = true) : v.isFilled = true := by
  rw [isTruthy, Bool.and_eq_true] at h
  exact h.1

namespace Control

theorem present_unshown (visible : Bool) (c : Control) : present visible c.unshown = present visible c :=
  rfl

theorem unshown_present {visible : Bool} {c : Control} (h : c.losesValue visible = false) :
    (present visible c).unshown = c.unshown := by
  simp only [present, h]
  rfl

theorem present_value (visible : Bool) (c : Control) :
    (present visible c).value = if c.losesValue visible then c.value.emptied else c.value := by
  unfold present
  split <;> rfl

/-- A control keeps its value just if it loses none, since what it would lose counts. -/
theorem present_value_eq_iff {visible : Bool} {c : Control} :
    (present visible c).value = c.value ↔ c.losesValue visible = false := by
  rw [present_value]
  constructor
  · intro same
    refine Bool.eq_false_iff.2 fun lost => ?_
    rw [if_pos lost] at same
    rw [losesValue, Bool.and_eq_true] at lost
    have filled := Json.isFilled_of_isTruthy lost.2
    rw [← same, Json.isFilled_emptied] at filled
    cases filled
  · intro kept
    rw [kept, if_neg Bool.false_ne_true]

/-- The value counts for a control in view, and one that does not count is left to any control. -/
theorem losesValue_present (visible : Bool) (c : Control) :
    (present visible c).losesValue visible = false := by
  unfold losesValue
  rw [present_value]
  split
  · simp [Json.isTruthy, Json.isFilled_emptied]
  · rename_i kept
    rwa [Bool.not_eq_true] at kept

end Control

namespace BoundControl

def presentBy (fields : List (String × Bool)) (b : BoundControl) : BoundControl :=
  match Table.get? b.id fields with
  | some visible => { b with state := b.state.present visible }
  | none => b

def losesValueBy (fields : List (String × Bool)) (b : BoundControl) : Bool :=
  (Table.get? b.id fields).any b.state.losesValue

variable {fields : List (String × Bool)} {b : BoundControl} {visible : Bool}

theorem presentBy_of_none (h : Table.get? b.id fields = none) : b.presentBy fields = b := by
  rw [presentBy, h]

theorem presentBy_of_some (h : Table.get? b.id fields = some visible) :
    b.presentBy fields = { b with state := b.state.present visible } := by
  rw [presentBy, h]

theorem losesValueBy_of_none (h : Table.get? b.id fields = none) : b.losesValueBy fields = false := by
  rw [losesValueBy, h, Option.any_none]

theorem losesValueBy_of_some (h : Table.get? b.id fields = some visible) :
    b.losesValueBy fields = b.state.losesValue visible := by
  rw [losesValueBy, h, Option.any_some]

theorem present_fades (visible : Bool) (b : BoundControl) :
    b.Fades { b with state := b.state.present visible } := by
  refine ⟨rfl, rfl, ?_⟩
  unfold Control.present
  dsimp only
  split
  · rename_i lost
    simp only [Control.losesValue, Bool.and_eq_true] at lost
    exact .inr ⟨Json.isFilled_of_isTruthy lost.2, rfl⟩
  · exact .inl rfl

theorem presentBy_fades (fields : List (String × Bool)) (b : BoundControl) :
    b.Fades (b.presentBy fields) := by
  cases entry : Table.get? b.id fields with
  | none =>
    rw [presentBy_of_none entry]
    exact .refl b
  | some visible =>
    rw [presentBy_of_some entry]
    exact b.present_fades visible

theorem reading_presentBy :
    (b.presentBy fields).reading = b.reading ↔ b.losesValueBy fields = false := by
  cases entry : Table.get? b.id fields with
  | none => simp only [presentBy_of_none entry, losesValueBy_of_none entry]
  | some visible =>
    rw [presentBy_of_some entry, losesValueBy_of_some entry]
    simp only [reading, Prod.mk.injEq, true_and, Control.present_value_eq_iff]

end BoundControl

namespace VisibilityPlan

def carryOut (acc : ControlSet × List String) (e : String × Bool) : ControlSet × List String :=
  (acc.1.modify e.1 (Control.present e.2),
    acc.2 ++ if (acc.1.get? e.1).any (Control.losesValue e.2) then [e.1] else [])

theorem apply_eq_foldl (p : VisibilityPlan) (controls : ControlSet) :
    p.apply controls = p.fields.foldl carryOut (controls, []) := by
  unfold apply
  congr 1
  funext acc e
  unfold carryOut
  cases found : acc.1.get? e.1 with
  | none => simp [ControlSet.modify_of_get?_none found]
  | some c => cases lost : c.losesValue e.2 <;> simp [lost]

theorem carryOut_fades (acc : ControlSet × List String) (e : String × Bool) :
    acc.1.Fades (carryOut acc e).1 := by
  refine ControlSet.fades_map fun b _ => ?_
  by_cases here : b.id = e.1
  · rw [if_pos here]
    exact b.present_fades e.2
  · rw [if_neg here]
    exact .refl b

theorem foldl_carryOut_fades (fields : List (String × Bool)) (acc : ControlSet × List String) :
    acc.1.Fades (fields.foldl carryOut acc).1 := by
  induction fields generalizing acc with
  | nil => exact .refl acc.1
  | cons e fields ih => exact (carryOut_fades acc e).trans (ih (carryOut acc e))

/-- Carrying out a plan only makes controls fade. -/
theorem apply_fades (p : VisibilityPlan) (controls : ControlSet) :
    controls.Fades (p.apply controls).1 := by
  rw [apply_eq_foldl]
  exact foldl_carryOut_fades p.fields (controls, [])

theorem map_presentBy_cons {e : String × Bool} {fields : List (String × Bool)}
    (once : e.1 ∉ fields.map (·.1)) (controls : ControlSet) :
    controls.map (BoundControl.presentBy (e :: fields)) =
      (controls.modify e.1 (Control.present e.2)).map (BoundControl.presentBy fields) := by
  have absent : Table.get? e.1 fields = none := Table.get?_eq_none_iff.2 once
  simp only [ControlSet.modify, List.map_map]
  refine List.map_congr_left fun b _ => ?_
  by_cases hid : b.id = e.1
  · simp [BoundControl.presentBy, Table.get?, hid, absent]
  · have hne : ¬e.1 = b.id := fun h => hid h.symm
    simp [BoundControl.presentBy, Table.get?, hid, hne]

theorem foldl_carryOut {fields : List (String × Bool)} (once : (fields.map (·.1)).Nodup)
    (acc : ControlSet × List String) :
    fields.foldl carryOut acc =
      (acc.1.map (BoundControl.presentBy fields),
        acc.2 ++ (fields.filter fun e => (acc.1.get? e.1).any (Control.losesValue e.2)).map (·.1)) := by
  induction fields generalizing acc with
  | nil =>
    have same : BoundControl.presentBy [] = id := rfl
    simp [same]
  | cons e fields ih =>
    obtain ⟨unused, once⟩ := List.nodup_cons.1 once
    have others : ∀ d ∈ fields, (acc.1.modify e.1 (Control.present e.2)).get? d.1 = acc.1.get? d.1 := by
      intro d hd
      refine ControlSet.get?_modify_of_ne (fun same => unused ?_) _ _
      exact List.mem_map.2 ⟨d, hd, same⟩
    have filtered : (fields.filter fun d =>
        ((acc.1.modify e.1 (Control.present e.2)).get? d.1).any (Control.losesValue d.2)) =
        fields.filter fun d => (acc.1.get? d.1).any (Control.losesValue d.2) := by
      refine List.filter_congr fun d hd => ?_
      rw [others d hd]
    rw [List.foldl_cons, ih once, carryOut, map_presentBy_cons unused]
    simp only [filtered, List.filter_cons]
    cases (acc.1.get? e.1).any (Control.losesValue e.2) <;> simp

variable {p : VisibilityPlan} {controls : ControlSet}

/-- A plan that names each control once presents every control on its own. -/
theorem apply_controls (once : (p.fields.map (·.1)).Nodup) :
    (p.apply controls).1 = controls.map (BoundControl.presentBy p.fields) := by
  rw [apply_eq_foldl, foldl_carryOut once]

/-- The readings stay as they are if and only if no control loses its value. -/
theorem readings_apply (once : (p.fields.map (·.1)).Nodup) :
    ControlSet.readings (p.apply controls).1 = controls.readings ↔
      ∀ b ∈ controls, b.losesValueBy p.fields = false := by
  rw [apply_controls once, ControlSet.readings, ControlSet.readings, List.map_map, List.map_inj_left]
  exact forall₂_congr fun b _ => BoundControl.reading_presentBy

/-- If no control is reported to lose its value, none does. -/
theorem keeps_of_unreported (once : (p.fields.map (·.1)).Nodup) (distinct : controls.ids.Nodup)
    (h : (p.apply controls).2 = []) : ∀ b ∈ controls, b.losesValueBy p.fields = false := by
  rw [apply_eq_foldl, foldl_carryOut once] at h
  simp only [List.nil_append, List.map_eq_nil_iff, List.filter_eq_nil_iff] at h
  intro b hb
  cases entry : Table.get? b.id p.fields with
  | none => exact BoundControl.losesValueBy_of_none entry
  | some visible =>
    rw [BoundControl.losesValueBy_of_some entry]
    have kept := h (b.id, visible) (Table.mem_of_get? entry)
    simpa [ControlSet.get?_of_mem distinct hb] using kept

end VisibilityPlan

end Formwork
