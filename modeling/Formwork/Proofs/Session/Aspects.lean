import Formwork.Choice.Catalog
import Formwork.Control.Lemmas
import Formwork.Lookup

/-!
# What giving a value leaves alone

Values reach controls by being entered, by a lookup, and by being brought into the spelling of a choice.
An aspect of controls that does not change when a control is given a value is the same after any of
these.
-/
namespace Formwork

def BoundControl.Lasts {α : Type} (aspect : BoundControl → α) : Prop :=
  ∀ (b : BoundControl) (v : Json), aspect { b with state := b.state.set v } = aspect b

variable {α : Type} {aspect : BoundControl → α}

namespace ControlSet

theorem map_modify {f : Control → Control}
    (h : ∀ b : BoundControl, aspect { b with state := f b.state } = aspect b) (id : String)
    (s : ControlSet) : (s.modify id f).map aspect = s.map aspect := by
  simp only [modify, List.map_map]
  refine List.map_congr_left fun b _ => ?_
  rw [Function.comp]
  split
  · exact h b
  · rfl

theorem map_set? (lasts : BoundControl.Lasts aspect) {id : String} {v : Json} {s t : ControlSet}
    (h : s.set? id v = some t) : t.map aspect = s.map aspect := by
  obtain ⟨-, rfl⟩ := set?_eq_some_iff.1 h
  exact map_modify (fun b => lasts b v) id s

end ControlSet

theorem Catalog.map_reconcile (lasts : BoundControl.Lasts aspect) (c : Catalog)
    (controls : ControlSet) : (c.reconcile controls).map aspect = controls.map aspect := by
  rw [reconcile, List.map_map]
  refine List.map_congr_left fun b _ => ?_
  simp only [Function.comp, reconciled]
  cases c.offer? b.id with
  | none => rfl
  | some o =>
    dsimp only
    split
    · rfl
    · exact lasts b _

namespace Lookup

theorem map_fillFrom (lasts : BoundControl.Lasts aspect) (l : Lookup) (scope : Scope)
    (value : FillPair → Json) (controls : ControlSet) :
    (l.fillFrom scope value controls).map aspect = controls.map aspect := by
  unfold fillFrom
  generalize l.fill = pairs
  induction pairs generalizing controls with
  | nil => rfl
  | cons pair pairs ih =>
    rw [List.foldl_cons, ih]
    split
    · exact ControlSet.map_modify (fun b => lasts b _) _ controls
    · rfl

theorem map_select? (lasts : BoundControl.Lasts aspect) {config : Config} {l : Lookup}
    {field : PlacedField} {selected : Json} {s t : ControlSet}
    (h : l.select? config field selected s = some t) : t.map aspect = s.map aspect := by
  obtain ⟨u, set, rfl⟩ := Option.map_eq_some_iff.1 h
  rw [map_fillFrom lasts, ControlSet.map_set? lasts set]

theorem map_clear? (lasts : BoundControl.Lasts aspect) {l : Lookup} {field : PlacedField}
    {s t : ControlSet} (h : l.clear? field s = some t) : t.map aspect = s.map aspect := by
  obtain ⟨u, set, rfl⟩ := Option.map_eq_some_iff.1 h
  rw [map_fillFrom lasts, ControlSet.map_set? lasts set]

end Lookup

end Formwork
