import Formwork.Table.Lemmas
import Formwork.Template.Printer

/-!
# Members after a change

A loosely written object is brought to its canonical form by changing one member after another. This
module says what each change does to the value under a name, and that no change of a member with a
meaning touches the members without one.
-/
namespace Formwork

namespace Table

variable {α : Type}

@[simp] theorem get?_insert (key other : String) (v : α) (t : Table α) :
    get? other (insert key v t) = if other = key then some v else get? other t := by
  split
  · rename_i same
    rw [same, get?_insert_self]
  · rename_i other_ne
    exact get?_insert_of_ne other_ne v t

@[simp] theorem get?_erase (key other : String) (t : Table α) :
    get? other (erase key t) = if other = key then none else get? other t := by
  split
  · rename_i same
    rw [same, get?_erase_self]
  · rename_i other_ne
    exact get?_erase_of_ne other_ne t

theorem erase_of_get?_none {key : String} {t : Table α} (h : get? key t = none) : erase key t = t := by
  refine List.filter_eq_self.2 fun e he => ?_
  have absent := get?_eq_none_iff.1 h
  have other : e.1 ≠ key := fun same => absent (same ▸ List.mem_map.2 ⟨e, he, rfl⟩)
  simpa using other

end Table

namespace Fields

@[simp] theorem get?_recast (f : Json → Option Json) (key other : String) (fields : Fields) :
    Table.get? other (recast f key fields) =
      if other = key then (Table.get? key fields).bind f else Table.get? other fields := by
  unfold recast
  cases found : Table.get? key fields with
  | none =>
    by_cases same : other = key
    · simp [same, found]
    · simp [same]
  | some v =>
    cases read : f v with
    | none => simp [read, Table.get?_erase]
    | some w => simp [read, Table.get?_insert]

@[simp] theorem get?_adopt {source key : String} (h : source ≠ key) (other : String) (fields : Fields) :
    Table.get? other (adopt source key fields) =
      if other = key then (Table.get? key fields).or (Table.get? source fields)
      else if other = source ∧ Table.has key fields = false then none
      else Table.get? other fields := by
  unfold adopt
  cases found : Table.get? key fields with
  | some v =>
    by_cases same : other = key
    · simp [Table.has, same, found]
    · simp [Table.has, same, found]
  | none =>
    cases taken : Table.get? source fields with
    | none =>
      by_cases same : other = source
      · simp [Table.has, same, found, taken, h]
      · by_cases atKey : other = key
        · simp [Table.has, atKey, found]
        · simp [Table.has, same, atKey, found]
    | some v => simp [Table.has, found, Table.get?_insert, Table.get?_erase]

@[simp] theorem get?_copy (source key other : String) (fields : Fields) :
    Table.get? other (copy source key fields) =
      if other = key then (Table.get? key fields).or (Table.get? source fields)
      else Table.get? other fields := by
  unfold copy
  cases found : Table.get? key fields with
  | some v =>
    by_cases same : other = key
    · simp [Table.has, same, found]
    · simp [Table.has, same, found]
  | none =>
    cases taken : Table.get? source fields with
    | none =>
      by_cases same : other = key
      · simp [Table.has, same, found]
      · simp [Table.has, same, found]
    | some v => simp [Table.has, found, Table.get?_insert]

/-- An object that has a member does not adopt another one in its place. -/
theorem adopt_of_get? {key : String} {fields : Fields} {v : Json}
    (h : Table.get? key fields = some v) (source : String) : adopt source key fields = fields := by
  simp [adopt, Table.has, h]

section

variable {known : List String} {key : String} (hkey : key ∈ known) (fields : Fields)

include hkey

@[simp] theorem others_insert (v : Json) : others known (Table.insert key v fields) = others known fields := by
  induction fields with
  | nil => simp [Table.insert, others, hkey]
  | cons e fields ih =>
    obtain ⟨k, w⟩ := e
    unfold Table.insert
    split
    · simp [others, hkey]
    · split
      · rename_i same
        simp [others, hkey, same]
      · unfold others at ih ⊢
        rw [List.filter_cons, List.filter_cons, ih]

@[simp] theorem others_erase : others known (Table.erase key fields) = others known fields := by
  unfold others Table.erase
  rw [List.filter_filter]
  refine List.filter_congr fun e _ => ?_
  by_cases same : e.1 = key
  · simp [same, hkey]
  · simp [same]

@[simp] theorem others_recast (f : Json → Option Json) :
    others known (recast f key fields) = others known fields := by
  unfold recast
  split
  · rfl
  · split
    · exact others_insert hkey fields _
    · exact others_erase hkey fields

@[simp] theorem others_copy (source : String) : others known (copy source key fields) = others known fields := by
  unfold copy
  split
  · rfl
  · split
    · exact others_insert hkey fields _
    · rfl

end

/-- What adopting a member leaves of those without a meaning. -/
theorem others_adopt {known : List String} {key : String} (hkey : key ∈ known) (source : String)
    (fields : Fields) : others known (adopt source key fields) =
      if Table.has key fields then others known fields
      else Table.erase source (others known fields) := by
  have commute : others known (Table.erase source fields) =
      Table.erase source (others known fields) := by
    unfold others Table.erase
    rw [List.filter_filter, List.filter_filter]
    exact List.filter_congr fun e _ => Bool.and_comm ..
  unfold adopt
  split
  · rfl
  · split
    · rw [others_insert hkey, commute]
    · rename_i missing
      rw [← commute, Table.erase_of_get?_none missing]

theorem others_others (known : List String) (fields : Fields) :
    others known (others known fields) = others known fields := by
  unfold others
  rw [List.filter_filter]
  exact List.filter_congr fun e _ => Bool.and_self _

/-- Members with a meaning, written over others, do not touch those without one. -/
theorem others_override {known : List String} {newer : Fields} (h : ∀ e ∈ newer, e.1 ∈ known)
    (fields : Fields) : others known (Table.override fields newer) = others known fields := by
  induction newer generalizing fields with
  | nil => rfl
  | cons e newer ih =>
    have first : e.1 ∈ known := h e List.mem_cons_self
    have rest : ∀ e ∈ newer, e.1 ∈ known := fun e he => h e (List.mem_cons_of_mem _ he)
    calc others known (Table.override fields (e :: newer))
        = others known (Table.override (Table.insert e.1 e.2 fields) newer) := rfl
      _ = others known (Table.insert e.1 e.2 fields) := ih rest _
      _ = others known fields := others_insert first fields _

end Fields

end Formwork
