import Formwork.Proofs.Template.Loose

/-!
# What is kept of a loosely written template

Sections and fields are given in lists or in tables, and what is not an object, or a field without any id,
is dropped. This module says which sections and fields are kept, in terms of the loosely written value alone,
and that reading in one step gives exactly those.
-/
namespace Formwork

/-- The value lists sections, and the one with these members is kept there or below one that is. -/
inductive KeptSection : Json → Fields → Prop
  | item {items : List Json} {members : Fields} (h : .obj members ∈ items) :
      KeptSection (.arr items) members
  | entry {entries : Fields} {title : String} {members : Fields} (h : (title, .obj members) ∈ entries) :
      KeptSection (.obj entries) members
  | under {v w : Json} {outer members : Fields} (above : KeptSection v outer)
      (h : (Table.get? "subsections" outer).or (Table.get? "subSections" outer) = some w)
      (kept : KeptSection w members) : KeptSection v members

/-- The value lists fields, and the one with these members is kept: in a list it needs an id, in a table
its name there can stand in for one. -/
inductive KeptField : Json → Fields → Prop
  | item {items : List Json} {members : Fields} (h : .obj members ∈ items)
      (id : ((Table.get? "id" members).or (Table.get? "fieldId" members)).bind Canonical.scalar? ≠ none) :
      KeptField (.arr items) members
  | entry {entries : Fields} {name : String} {members : Fields} (h : (name, .obj members) ∈ entries) :
      KeptField (.obj entries) members

namespace Loose

open Canonical

theorem mem_fields_of_keptField {v : Json} {members : Fields} (h : KeptField v members) :
    ∃ id, field id members ∈ fields (some v) := by
  cases h with
  | @item items _ h id =>
    obtain ⟨id, own⟩ := Option.ne_none_iff_exists'.1 id
    have said : field? none (.obj members) = some (field id members) := by simp [field?, own]
    exact ⟨id, List.mem_filterMap.2 ⟨_, h, said⟩⟩
  | @entry entries name _ h =>
    cases own : ((Table.get? "id" members).or (Table.get? "fieldId" members)).bind scalar? with
    | some id =>
      have said : field? (some name) (.obj members) = some (field id members) := by simp [field?, own]
      exact ⟨id, List.mem_filterMap.2 ⟨_, h, said⟩⟩
    | none =>
      have said : field? (some name) (.obj members) = some (field name members) := by
        simp [field?, own]
      exact ⟨name, List.mem_filterMap.2 ⟨_, h, said⟩⟩

theorem exists_keptField {v : Json} {f : Field} (h : f ∈ fields (some v)) :
    ∃ id members, KeptField v members ∧ f = field id members := by
  have said {fallback : Option String} {w : Json} (h : field? fallback w = some f) :
      ∃ id members, w = .obj members ∧ f = field id members ∧ (fallback = none →
        ((Table.get? "id" members).or (Table.get? "fieldId" members)).bind scalar? ≠ none) := by
    cases w with
    | obj members =>
      obtain ⟨id, found, rfl⟩ := Option.map_eq_some_iff.1 h
      refine ⟨id, members, rfl, rfl, ?_⟩
      rintro rfl missing
      simp [missing] at found
    | _ => cases h
  cases v with
  | arr items =>
    obtain ⟨w, hw, h⟩ := List.mem_filterMap.1 h
    obtain ⟨id, members, rfl, rfl, own⟩ := said h
    exact ⟨id, members, .item hw (own rfl), rfl⟩
  | obj entries =>
    obtain ⟨⟨name, w⟩, hw, h⟩ := List.mem_filterMap.1 h
    obtain ⟨id, members, rfl, rfl, -⟩ := said h
    exact ⟨id, members, .entry hw, rfl⟩
  | _ => simp [fields] at h

/-- What is kept among the sections that a value lists is a smaller value. -/
theorem exists_keptSection {v : Json} {s : Section} (h : s ∈ sections v) :
    ∃ fallback members, sectionIn? fallback (.obj members) = some s ∧ KeptSection v members ∧
      sizeOf (Json.obj members) < sizeOf v := by
  cases v with
  | arr items =>
    rw [sections_arr] at h
    obtain ⟨w, hw, h⟩ := List.mem_filterMap.1 h
    cases w with
    | obj members =>
      refine ⟨none, members, h, .item hw, ?_⟩
      have := List.sizeOf_lt_of_mem hw
      rw [Json.arr.sizeOf_spec]
      omega
    | _ => simp [sectionIn?] at h
  | obj entries =>
    rw [sections_obj] at h
    obtain ⟨⟨title, w⟩, he, h⟩ := List.mem_filterMap.1 h
    cases w with
    | obj members =>
      refine ⟨some title, members, h, .entry he, ?_⟩
      have := List.sizeOf_lt_of_mem he
      rw [Prod.mk.sizeOf_spec] at this
      rw [Json.obj.sizeOf_spec entries]
      omega
    | _ => simp [sectionIn?] at h
  | _ => simp [sections] at h

theorem sizeOf_get? {key : String} {members : Fields} {v : Json}
    (h : Table.get? key members = some v) : sizeOf v < sizeOf (Json.obj members) := by
  have := List.sizeOf_lt_of_mem (Table.mem_of_get? h)
  rw [Prod.mk.sizeOf_spec] at this
  rw [Json.obj.sizeOf_spec]
  omega

theorem sizeOf_listed? {members : Fields} {w : Json} (h : listed? members = some w) :
    sizeOf w < sizeOf (Json.obj members) := by
  rcases Option.or_eq_some_iff.1 h with own | ⟨-, older⟩
  · exact sizeOf_get? own
  · exact sizeOf_get? older

end Loose

end Formwork
