import Formwork.Control.Basic

/-!
# Sets of controls through look-up

What each operation on a set of controls does to its identifiers and to the control found under one
of them. Only binding a control changes the identifiers, and it keeps them distinct.
-/
namespace Formwork.ControlSet

theorem has_eq_true_iff {id : String} {s : ControlSet} : s.has id = true ↔ id ∈ s.ids := by
  simp only [has, ids, List.any_eq_true, List.mem_map, decide_eq_true_eq]

@[simp] theorem ids_modify (id : String) (f : Control → Control) (s : ControlSet) :
    (s.modify id f).ids = s.ids := by
  have same : ∀ b : BoundControl, (if b.id = id then { b with state := f b.state } else b).id = b.id := by
    intro b
    split <;> rfl
  simp [modify, ids, same]

theorem get?_cons (id : String) (b : BoundControl) (s : ControlSet) :
    get? id (b :: s) = if b.id = id then some b.state else get? id s := by
  by_cases h : b.id = id <;> simp [get?, h]

theorem get?_modify_self (id : String) (f : Control → Control) (s : ControlSet) :
    (s.modify id f).get? id = (s.get? id).map f := by
  induction s with
  | nil => rfl
  | cons b s ih =>
    have step : modify id f (b :: s) =
        (if b.id = id then { b with state := f b.state } else b) :: modify id f s := rfl
    rw [step, get?_cons, get?_cons, ih]
    by_cases h : b.id = id <;> simp [h]

theorem get?_modify_of_ne {id other : String} (h : other ≠ id) (f : Control → Control)
    (s : ControlSet) : (s.modify id f).get? other = s.get? other := by
  induction s with
  | nil => rfl
  | cons b s ih =>
    have step : modify id f (b :: s) =
        (if b.id = id then { b with state := f b.state } else b) :: modify id f s := rfl
    rw [step, get?_cons, get?_cons, ih]
    by_cases hb : b.id = id
    · have hne : ¬id = other := fun heq => h heq.symm
      simp [hb, hne]
    · simp [hb]

theorem isSome_get?_iff {id : String} {s : ControlSet} : (s.get? id).isSome ↔ id ∈ s.ids := by
  induction s with
  | nil => simp [get?, ids]
  | cons b s ih =>
    rw [get?_cons]
    by_cases h : b.id = id
    · simp [ids, h]
    · have hne : ¬id = b.id := fun heq => h heq.symm
      simpa [ids, h, hne] using ih

theorem get?_eq_none_iff {id : String} {s : ControlSet} : s.get? id = none ↔ id ∉ s.ids := by
  rw [← Option.not_isSome_iff_eq_none, isSome_get?_iff]

theorem exists_get?_iff {id : String} {s : ControlSet} : (∃ c, s.get? id = some c) ↔ id ∈ s.ids :=
  Option.isSome_iff_exists.symm.trans isSome_get?_iff

/-- A control that is given a value has it. -/
theorem value?_modify_set {id : String} {s : ControlSet} (there : id ∈ s.ids) (v : Json) :
    (s.modify id (Control.set v)).value? id = some v := by
  obtain ⟨c, found⟩ := exists_get?_iff.2 there
  rw [value?, get?_modify_self, found]
  rfl

theorem modify_modify (id : String) (f g : Control → Control) (s : ControlSet) :
    (s.modify id f).modify id g = s.modify id (g ∘ f) := by
  simp only [modify, List.map_map]
  refine List.map_congr_left fun b _ => ?_
  by_cases h : b.id = id <;> simp [h]

theorem modify_id (id : String) (s : ControlSet) : s.modify id (fun c => c) = s := by
  rw [modify, List.map_congr_left (g := fun b => b) fun b _ => ite_self b, List.map_id']

theorem modify_comm {id other : String} (h : other ≠ id) (f g : Control → Control) (s : ControlSet) :
    (s.modify id f).modify other g = (s.modify other g).modify id f := by
  simp only [modify, List.map_map]
  refine List.map_congr_left fun b _ => ?_
  by_cases hb : b.id = id
  · simp [hb, h.symm]
  · by_cases ho : b.id = other <;> simp [hb, ho, h]

/-- Where the identifiers are distinct, an identifier belongs to the control that is found under it. -/
theorem state_eq_of_get? {id : String} {c : Control} {s : ControlSet} (distinct : s.ids.Nodup)
    (h : s.get? id = some c) : ∀ b ∈ s, b.id = id → b.state = c := by
  induction s with
  | nil => simp
  | cons first s ih =>
    obtain ⟨unused, distinct⟩ := List.nodup_cons.1 distinct
    rw [get?_cons] at h
    intro b hb hid
    by_cases hf : first.id = id
    · rcases List.mem_cons.1 hb with rfl | hb
      · simpa [hf] using h
      · exact absurd (List.mem_map.2 ⟨b, hb, hid.trans hf.symm⟩) unused
    · rcases List.mem_cons.1 hb with rfl | hb
      · exact absurd hid hf
      · exact ih distinct (by simpa [hf] using h) b hb hid

theorem modify_of_get?_none {id : String} {s : ControlSet} (h : s.get? id = none)
    (f : Control → Control) : s.modify id f = s := by
  have absent : ∀ b ∈ s, ¬b.id = id := by
    rintro b hb rfl
    exact get?_eq_none_iff.1 h (List.mem_map_of_mem hb)
  rw [modify, List.map_congr_left (g := fun b => b) fun b hb => if_neg (absent b hb), List.map_id']

/-- Where the identifiers are distinct, every control is found under its identifier. -/
theorem get?_of_mem {s : ControlSet} (distinct : s.ids.Nodup) {b : BoundControl} (hb : b ∈ s) :
    s.get? b.id = some b.state := by
  obtain ⟨c, hc⟩ := exists_get?_iff.2 (List.mem_map_of_mem hb)
  rw [hc, state_eq_of_get? distinct hc b hb rfl]

/-- A change of the one control under an identifier may be computed from its state beforehand. -/
theorem modify_const_of_get? {id : String} {c : Control} {s : ControlSet} (distinct : s.ids.Nodup)
    (h : s.get? id = some c) (f : Control → Control) :
    s.modify id (fun _ => f c) = s.modify id f := by
  refine List.map_congr_left fun b hb => ?_
  by_cases hid : b.id = id
  · simp only [hid, if_true, state_eq_of_get? distinct h b hb hid]
  · simp only [hid, if_false]

theorem value?_of_get? {id : String} {c : Control} {s : ControlSet} (h : s.get? id = some c) :
    s.value? id = some c.value := by
  rw [value?, h, Option.map_some]

/-- A value that is found is that of a control. -/
theorem exists_of_value? {id : String} {v : Json} {s : ControlSet} (h : s.value? id = some v) :
    ∃ b ∈ s, b.id = id ∧ b.state.value = v := by
  obtain ⟨c, there, rfl⟩ := Option.map_eq_some_iff.1 h
  obtain ⟨b, found, rfl⟩ := Option.map_eq_some_iff.1 there
  exact ⟨b, List.mem_of_find?_eq_some found, by simpa using List.find?_some found, rfl⟩

theorem value?_eq_none_iff {id : String} {s : ControlSet} : s.value? id = none ↔ s.get? id = none := by
  rw [value?, Option.map_eq_none_iff]

theorem set?_eq_some_iff {id : String} {v : Json} {s t : ControlSet} :
    s.set? id v = some t ↔ id ∈ s.ids ∧ t = s.modify id (Control.set v) := by
  rw [← has_eq_true_iff]
  cases h : s.has id <;> simp [set?, h, eq_comm]

theorem ids_set? {id : String} {v : Json} {s t : ControlSet} (h : s.set? id v = some t) :
    t.ids = s.ids := by
  obtain ⟨-, rfl⟩ := set?_eq_some_iff.1 h
  exact ids_modify ..

/-- Giving a control a value fails just where there is no such control. -/
theorem set?_eq_none_iff {id : String} {v : Json} {s : ControlSet} :
    s.set? id v = none ↔ id ∉ s.ids := by
  rw [← has_eq_true_iff]
  cases h : s.has id <;> simp [set?, h]

end Formwork.ControlSet
