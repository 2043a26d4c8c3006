import Formwork.Proofs.Template.Agreement
import Formwork.Proofs.Template.Kept

/-!
# Which templates are refused

However a template is written, reading it fails for one reason only: a bound of a repetition, or the bound
on the choices of a field, that stands for a count beyond 32 bits. What counts is each section that bringing
the template to its canonical form keeps, at any depth, and each field that it keeps there.
-/
namespace Formwork

def Overlong (part : Option Json) : Prop :=
  ∃ v n, part = some v ∧ Canonical.count? v = some (Json.ofNat n) ∧ 4294967295 < n

/-- The section with these members says how it repeats in an object with a bound beyond 32 bits. -/
def OverlongRepeat (members : Fields) : Prop :=
  ∃ spec, Table.get? "repeat" members = some (.obj spec) ∧
    (Overlong (Table.get? "min" spec) ∨ Overlong (Table.get? "max" spec) ∨
      Overlong ((Table.get? "defaultCount" spec).or (Table.get? "default" spec)))

/-- A field kept in the section with these members has a bound on its choices beyond 32 bits. -/
def OverlongField (members : Fields) : Prop :=
  ∃ v field, Table.get? "fields" members = some v ∧ KeptField v field ∧
    Overlong (Table.get? "maxOptions" field)

theorem json_ofNat_injective {m n : Nat} (h : Json.ofNat m = Json.ofNat n) : m = n := by
  injection h with h
  injection h with h
  exact Int.ofNat_inj.1 h

theorem overlong_iff (part : Option Json) :
    Overlong part ↔ (part.bind Loose.natural?).all (· < boundLimit) = false := by
  have bound (n : Nat) : 4294967295 < n ↔ ¬n < boundLimit := by
    have : boundLimit = 4294967296 := by decide
    omega
  cases part with
  | none => simp [Overlong]
  | some v =>
    cases said : Loose.natural? v with
    | none => simp [Overlong, Loose.count?_eq, said]
    | some n =>
      constructor
      · rintro ⟨w, m, hw, form, beyond⟩
        obtain rfl : v = w := Option.some.inj hw
        rw [Loose.count?_eq, said] at form
        obtain rfl : n = m := json_ofNat_injective (Option.some.inj form)
        simpa [said] using (bound n).1 beyond
      · intro beyond
        refine ⟨v, n, rfl, ?_, (bound n).2 ?_⟩
        · rw [Loose.count?_eq, said, Option.map_some]
        · simpa [said] using beyond

namespace Loose

open Canonical

def ownFits (members : Fields) : Bool :=
  ((Table.get? "repeat" members).bind repetition?).all RepeatSpec.fits &&
    (fields (Table.get? "fields" members)).all Field.fits

theorem sectionIn?_fits {fallback : Option String} {members : Fields} {s : Section}
    (h : sectionIn? fallback (.obj members) = some s) :
    s.fits = (ownFits members && Section.listFits (((listed? members).map sections).getD [])) := by
  rw [sectionIn?_obj] at h
  obtain rfl := Option.some.inj h
  rw [fits_sectionOf]
  rfl

theorem overlongRepeat_iff (members : Fields) : OverlongRepeat members ↔
    ((Table.get? "repeat" members).bind repetition?).all RepeatSpec.fits = false := by
  unfold OverlongRepeat
  simp only [overlong_iff]
  cases Table.get? "repeat" members with
  | none => simp
  | some v =>
    cases v with
    | obj spec =>
      simp only [Option.bind_some, repetition?, Option.all_some, RepeatSpec.fits,
        Bool.and_eq_false_iff, or_assoc]
      constructor
      · rintro ⟨spec', same, beyond⟩
        obtain rfl : spec = spec' := by simpa using same
        exact beyond
      · exact fun beyond => ⟨spec, rfl, beyond⟩
    | bool b => simp [repetition?, RepeatSpec.fits]
    | _ => simp [repetition?]

theorem field_fits (id : String) (members : Fields) : (field id members).fits =
    ((Table.get? "maxOptions" members).bind natural?).all (· < boundLimit) := rfl

theorem overlongField_iff (members : Fields) : OverlongField members ↔
    (fields (Table.get? "fields" members)).all Field.fits = false := by
  rw [List.all_eq_false]
  constructor
  · rintro ⟨v, field, found, kept, beyond⟩
    obtain ⟨id, mem⟩ := mem_fields_of_keptField kept
    rw [found]
    exact ⟨_, mem, by simpa only [field_fits, Bool.not_eq_true] using (overlong_iff _).1 beyond⟩
  · rintro ⟨f, mem, beyond⟩
    cases found : Table.get? "fields" members with
    | none => simp [found, fields] at mem
    | some v =>
      rw [found] at mem
      obtain ⟨id, field, kept, rfl⟩ := exists_keptField mem
      exact ⟨v, field, found, kept,
        (overlong_iff _).2 (by simpa only [field_fits, Bool.not_eq_true] using beyond)⟩

theorem ownFits_eq_false_iff (members : Fields) :
    ownFits members = false ↔ OverlongRepeat members ∨ OverlongField members := by
  rw [ownFits, Bool.and_eq_false_iff, overlongRepeat_iff, overlongField_iff]

/-! ## Sections at any depth -/

/-- If some section does not fit, then a section at some depth has a bound of its own that does not. -/
theorem exists_of_listFits_eq_false (v : Json) (h : Section.listFits (sections v) = false) :
    ∃ members, KeptSection v members ∧ ownFits members = false := by
  rw [Section.listFits_eq, List.all_eq_false] at h
  obtain ⟨s, mem, beyond⟩ := h
  obtain ⟨fallback, members, said, kept, smaller⟩ := exists_keptSection mem
  rw [Bool.not_eq_true, sectionIn?_fits said, Bool.and_eq_false_iff] at beyond
  rcases beyond with own | below
  · exact ⟨members, kept, own⟩
  · cases found : listed? members with
    | none => simp [found, Section.listFits] at below
    | some w =>
      have := sizeOf_listed? found
      rw [found] at below
      obtain ⟨inner, keptInner, own⟩ := exists_of_listFits_eq_false w below
      exact ⟨inner, .under kept found keptInner, own⟩
termination_by sizeOf v

/-- If the sections that a value lists fit, so does each one at any depth. -/
theorem listFits_of_keptSection {v : Json} {members : Fields} (h : KeptSection v members)
    (fits : Section.listFits (sections v) = true) : ownFits members = true ∧
      Section.listFits (((listed? members).map sections).getD []) = true := by
  have one (fallback : Option String) {v : Json} {members : Fields}
      (fits : Section.listFits (sections v) = true)
      (mem : sectionOf fallback members (((listed? members).map sections).getD []) ∈ sections v) :
      ownFits members = true ∧
        Section.listFits (((listed? members).map sections).getD []) = true := by
    rw [Section.listFits_eq, List.all_eq_true] at fits
    have here := fits _ mem
    rwa [sectionIn?_fits (sectionIn?_obj fallback members), Bool.and_eq_true] at here
  induction h with
  | @item items members h =>
    refine one none fits ?_
    rw [sections_arr]
    exact List.mem_filterMap.2 ⟨_, h, sectionIn?_obj none members⟩
  | @entry entries title members h =>
    refine one (some title) fits ?_
    rw [sections_obj]
    exact List.mem_filterMap.2 ⟨_, h, sectionIn?_obj (some title) members⟩
  | @under v w outer members _ h _ ihAbove ihKept =>
    have found : listed? outer = some w := h
    have below := (ihAbove fits).2
    rw [found] at below
    exact ihKept below

end Loose

/-- A template is refused if and only if some section that is kept, at any depth, repeats with a bound
beyond 32 bits or holds a kept field with such a bound on its choices. -/
theorem Template.parse?_eq_none_iff (raw : Json) : parse? raw = none ↔
    ∃ v members, Table.get? "sections" (Canonical.templateFields raw) = some v ∧
      KeptSection v members ∧ (OverlongRepeat members ∨ OverlongField members) := by
  have refused : parse? raw = none ↔ Section.listFits (Loose.template raw).sections = false := by
    rw [parse?_eq, Option.guard_eq_none_iff, Template.fits]
  simp only [refused, Loose.template, ← Loose.ownFits_eq_false_iff]
  cases Table.get? "sections" (Canonical.templateFields raw) with
  | none => simp [Section.listFits]
  | some v =>
    rw [Option.map_some, Option.getD_some]
    constructor
    · intro beyond
      obtain ⟨members, kept, own⟩ := Loose.exists_of_listFits_eq_false v beyond
      exact ⟨v, members, rfl, kept, own⟩
    · rintro ⟨w, members, same, kept, own⟩
      obtain rfl : v = w := Option.some.inj same
      refine Bool.eq_false_iff.2 fun fits => ?_
      rw [(Loose.listFits_of_keptSection kept fits).1] at own
      cases own

end Formwork
