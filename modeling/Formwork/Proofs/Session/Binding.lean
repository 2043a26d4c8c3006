import Formwork.Proofs.Session.Standing

/-!
# What controls are bound with

There is one control for each field of the tree. When a form is bound with the values that its controls
had before, each of them has its own value again, and the values of others have no part in it.
-/
namespace Formwork.Session

variable {s : Session}

/-- Every field of the tree has its control. -/
theorem Founded.control (h : s.Founded) {p : PlacedField} (hp : p ∈ s.tree.fields) :
    ∃ b ∈ s.controls, b.cast = p.cast ∧ s.controls.get? p.controlId = some b.state := by
  have cast : p.cast ∈ s.controls.cast := by
    rw [h.cast]
    exact List.mem_map_of_mem hp
  obtain ⟨b, hb, same⟩ := List.mem_map.1 cast
  have id : b.id = p.controlId := congrArg Cast.id same
  exact ⟨b, hb, same, id ▸ ControlSet.get?_of_mem h.bound.distinct hb⟩

/-- Every control belongs to a field of the tree. -/
theorem Founded.field_of_mem (h : s.Founded) {b : BoundControl} (hb : b ∈ s.controls) :
    ∃ p ∈ s.tree.fields, p.controlId = b.id := by
  have id : b.id ∈ s.controls.ids := List.mem_map_of_mem hb
  rw [h.bound.ids] at id
  exact List.mem_map.1 id

/-- Every field of the tree has a value. -/
theorem Founded.exists_value (h : s.Founded) {p : PlacedField} (hp : p ∈ s.tree.fields) :
    ∃ v, s.controls.value? p.controlId = some v := by
  obtain ⟨b, -, -, found⟩ := h.control hp
  exact ⟨b.state.value, ControlSet.value?_of_get? found⟩

/-- The snapshot has the values of the controls. -/
theorem get?_snapshot {controls : ControlSet} (distinct : controls.ids.Nodup) (id : String) :
    Table.get? id controls.snapshot = controls.value? id := by
  have names : (Table.names (controls.map fun b => (b.id, b.state.value))).Nodup := by
    rw [Table.names, List.map_map]
    exact distinct
  rw [ControlSet.snapshot, Table.get?_ofPairs names]
  clear distinct names
  induction controls with
  | nil => rfl
  | cons b controls ih =>
    rw [List.map_cons, ControlSet.value?, ControlSet.get?_cons, Table.get?]
    split
    · rfl
    · exact ih

section Bind

variable {u : Session} (distinct : (u.tree.fields.map (·.controlId)).Nodup)
include distinct

theorem controls_bind (before : Fields) :
    (u.bind before).controls = u.tree.fields.map fun p =>
      ⟨p.controlId, Identifier.ofRaw p.field.id, p.freshControl u.circumstances before⟩ :=
  ControlSet.ofTree_eq_map u.circumstances before distinct

theorem ids_bind (before : Fields) :
    (u.bind before).controls.ids = u.tree.fields.map (·.controlId) := by
  rw [controls_bind distinct before, ControlSet.ids, List.map_map]
  rfl

/-- A control is bound with the value given for its identifier, if there is one. -/
theorem value?_bind (before : Fields) {f : PlacedField} (hf : f ∈ u.tree.fields) :
    (u.bind before).controls.value? f.controlId =
      some (f.field.initialValue u.circumstances (Table.get? f.controlId before)) := by
  have ids : (u.bind before).controls.ids.Nodup := ids_bind distinct before ▸ distinct
  have there : (⟨f.controlId, Identifier.ofRaw f.field.id, f.freshControl u.circumstances before⟩ :
      BoundControl) ∈ (u.bind before).controls :=
    controls_bind distinct before ▸ List.mem_map_of_mem hf
  exact ControlSet.value?_of_get? (ControlSet.get?_of_mem ids there)

/-- A control is bound with what is given for its identifier, and with nothing else of the values. -/
theorem value?_bind_congr {before before' : Fields} {id : String}
    (h : Table.get? id before = Table.get? id before') :
    (u.bind before).controls.value? id = (u.bind before').controls.value? id := by
  by_cases rendered : id ∈ u.tree.fields.map (·.controlId)
  · obtain ⟨f, hf, rfl⟩ := List.mem_map.1 rendered
    rw [value?_bind distinct before hf, value?_bind distinct before' hf, h]
  · have absent : ∀ before, (u.bind before).controls.value? id = none := by
      intro before
      rwa [ControlSet.value?_eq_none_iff, ← Option.not_isSome_iff_eq_none,
        ControlSet.isSome_get?_iff, ids_bind distinct before]
    rw [absent, absent]

end Bind

/-- Another value for a control changes nothing else in the snapshot. -/
theorem erase_snapshot_of_set? {controls controls' : ControlSet} (distinct : controls.ids.Nodup)
    {id : String} {v : Json} (set : controls.set? id v = some controls') :
    Table.erase id controls'.snapshot = Table.erase id controls.snapshot := by
  have distinct' : controls'.ids.Nodup := ControlSet.ids_set? set ▸ distinct
  refine Table.ext (Table.ascending_erase id (Table.ascending_ofPairs _))
    (Table.ascending_erase id (Table.ascending_ofPairs _)) fun other => ?_
  by_cases same : other = id
  · rw [same, Table.get?_erase_self, Table.get?_erase_self]
  · rw [Table.get?_erase_of_ne same, Table.get?_erase_of_ne same, get?_snapshot distinct',
      get?_snapshot distinct]
    obtain ⟨-, rfl⟩ := ControlSet.set?_eq_some_iff.1 set
    rw [ControlSet.value?, ControlSet.get?_modify_of_ne same]
    rfl

end Formwork.Session
