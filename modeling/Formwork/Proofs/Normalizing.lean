import Formwork.Proofs.Template.Rereading

/-!
# The canonical form of a canonical form

Bringing a template to its canonical form once more does not change what is read from it, with one exception: a
condition's reference, a field's source of choices or a section's count to begin with may stand under several
names. An unusable value under the main one masks the others the first time, and is gone the second time. This
module says that of sections at any depth, and so of templates.
-/
namespace Formwork

/-- Something is masked in the section with these members, in how it repeats, in its conditions or in one of its
fields. -/
def MaskedSection (members : Fields) : Prop :=
  (∃ spec, Table.get? "repeat" members = some (.obj spec) ∧ MaskedCount spec) ∨ MaskedConditions members ∨
    ∃ v f, Table.get? "fields" members = some v ∧ KeptField v f ∧ MaskedField f

/-- The section with these members is one of those that a value lists itself. -/
inductive ListedSection : Json → Fields → Prop
  | item {items : List Json} {members : Fields} (h : .obj members ∈ items) :
      ListedSection (.arr items) members
  | entry {entries : Fields} {title : String} {members : Fields} (h : (title, .obj members) ∈ entries) :
      ListedSection (.obj entries) members

/-- A section that is kept is listed, or kept below one that is. -/
theorem keptSection_iff {v : Json} {members : Fields} : KeptSection v members ↔
    ListedSection v members ∨
      ∃ outer w, ListedSection v outer ∧ Loose.listed? outer = some w ∧ KeptSection w members := by
  have kept {v : Json} {outer : Fields} (h : ListedSection v outer) : KeptSection v outer := by
    cases h with
    | item h => exact .item h
    | entry h => exact .entry h
  constructor
  · intro h
    induction h with
    | item h => exact .inl (.item h)
    | entry h => exact .inl (.entry h)
    | @under v w outer members above h below ihAbove ihBelow =>
      rcases ihAbove with listed | ⟨outermost, u, listed, found, between⟩
      · exact .inr ⟨outer, w, listed, h, below⟩
      · exact .inr ⟨outermost, u, listed, found, .under between h below⟩
  · rintro (listed | ⟨outer, w, listed, found, below⟩)
    · exact kept listed
    · exact .under (kept listed) found below

namespace Loose

open Canonical

theorem groupsUnder?_eq (key : String) (members : Fields) :
    groupsUnder? key members = (Table.get? key members).map groupList := by
  induction members with
  | nil => simp [groupsUnder?, Table.get?]
  | cons e members ih =>
    obtain ⟨k, v⟩ := e
    by_cases same : k = key <;> simp [groupsUnder?, Table.get?, same, ih]

theorem group?_obj (fallback : Option String) (members : Fields) : group? fallback (.obj members) =
    some (.obj (groupFields fallback members (((listed? members).map groupList).getD []))) := by
  cases own : Table.get? "subsections" members <;> simp [group?, groupsUnder?_eq, listed?, own]

theorem groupList_arr (items : List Json) : groupList (.arr items) = items.filterMap (group? none) := by
  rw [groupList]
  induction items with
  | nil => simp [groupItems]
  | cons v items ih => cases h : group? none v <;> simp [groupItems, ih, h]

theorem groupList_obj (members : Fields) :
    groupList (.obj members) = members.filterMap fun e => group? (some e.1) e.2 := by
  rw [groupList]
  induction members with
  | nil => simp [groupMembers]
  | cons e members ih =>
    obtain ⟨k, v⟩ := e
    cases h : group? (some k) v <;> simp [groupMembers, ih, h]

/-- A section is read again as it was, with the sections below it as they are read again, unless something is
masked in it. -/
theorem sectionOf_again_eq_iff (fallback : Option String) {raw : Fields} (format : Json.MembersInFormat raw)
    (forms : List Json) (below below' : List Section) :
    (sectionOf none (groupFields fallback raw forms) below' = sectionOf fallback raw below ↔
        ¬MaskedSection raw ∧ below' = below) ∧
      ((sectionOf none (groupFields fallback raw forms) below').fits = true →
        (Section.listFits below' = true → Section.listFits below = true) →
          (sectionOf fallback raw below).fits = true) := by
  obtain ⟨title, order, baseKey, repetition, fields', subsections, conditions', visibility, isEnabled, step,
    extra⟩ := get?_groupFields fallback raw forms
  have titles : Loose.title none (Table.get? "title" (groupFields fallback raw forms)) =
      Loose.title fallback (Table.get? "title" raw) := by
    rw [title, get?_titled_self]
    cases given : ((Table.get? "title" raw).bind scalar?).or fallback with
    | some s => exact title_str _
    | none =>
      obtain ⟨own, rfl⟩ := Option.or_eq_none_iff.1 given
      simp [Loose.title, own]
  have rest : Fields.others Section.properties
      (Fields.adopt "subSections" "subsections" (groupFields fallback raw forms)) =
        Fields.others Section.properties (Fields.adopt "subSections" "subsections" raw) := by
    rw [Fields.adopt_of_get? subsections, extra]
    rfl
  have repeats : ((((Table.get? "repeat" raw).bind repeat?).bind repetition? =
        (Table.get? "repeat" raw).bind repetition? ↔
          ¬∃ spec, Table.get? "repeat" raw = some (.obj spec) ∧ MaskedCount spec)) ∧
      ((((Table.get? "repeat" raw).bind repeat?).bind repetition?).all RepeatSpec.fits = true →
        ((Table.get? "repeat" raw).bind repetition?).all RepeatSpec.fits = true) := by
    cases found : Table.get? "repeat" raw with
    | none => exact ⟨iff_of_true rfl (by simp), fun fits => fits⟩
    | some v =>
      have one := (repetition_rereads v (inFormat_get? format v found)).bind
      simpa only [Option.bind_some, Option.some.injEq] using one
  have fieldsAgain := fields_again (Table.get? "fields" raw) (inFormat_get? format)
  have conditionsAgain := conditions_again_iff raw
  constructor
  · rw [MaskedSection, not_or, not_or, ← repeats.1, ← conditionsAgain]
    have fieldsFree : (¬∃ v f, Table.get? "fields" raw = some v ∧ KeptField v f ∧ MaskedField f) ↔
        fields (some (.arr (fieldList (Table.get? "fields" raw)))) = fields (Table.get? "fields" raw) := by
      rw [fieldsAgain.1]
      simp only [not_exists, not_and]
    rw [fieldsFree]
    simp only [sectionOf, titles, order, baseKey, repetition, fields', conditions', visibility, isEnabled, step,
      rest, binary64?_again, scalar?_again, truth?_again, Section.mk.injEq, true_and, and_true]
    constructor
    · rintro ⟨h₁, h₂, h₃, h₄, h₅⟩
      exact ⟨⟨h₁, ⟨h₄, h₅⟩, h₂⟩, h₃⟩
    · rintro ⟨⟨h₁, ⟨h₄, h₅⟩, h₂⟩, h₃⟩
      exact ⟨h₁, h₂, h₃, h₄, h₅⟩
  · rw [fits_sectionOf, fits_sectionOf, Bool.and_eq_true, Bool.and_eq_true, Bool.and_eq_true,
      Bool.and_eq_true]
    simp only [sectionOf, repetition, fields']
    rintro ⟨⟨spec, own⟩, list⟩ tight
    exact ⟨⟨repeats.2 spec, fieldsAgain.2 own⟩, tight list⟩

/-- What is said of the sections that a value lists, read again from their canonical form: they are the same
unless something is masked in one that is kept, and what does not fit does not fit again. -/
def SectionsAgain (v : Json) : Prop :=
  (sections (.arr (groupList v)) = sections v ↔ ∀ members, KeptSection v members → ¬MaskedSection members) ∧
    (Section.listFits (sections (.arr (groupList v))) = true → Section.listFits (sections v) = true)

def MaskedWithin (members : Fields) : Prop :=
  MaskedSection members ∨
    ∃ w inner, listed? members = some w ∧ KeptSection w inner ∧ MaskedSection inner

theorem section_rereads (fallback : Option String) (v : Json) (format : v.InFormat)
    (below : ∀ members w, v = .obj members → listed? members = some w → SectionsAgain w) :
    Rereads (sectionIn? none) Section.fits (∃ members, v = .obj members ∧ MaskedWithin members)
      (group? fallback v) (sectionIn? fallback v) := by
  cases v with
  | obj members =>
    rw [group?_obj, sectionIn?_obj]
    generalize forms_eq : ((listed? members).map groupList).getD [] = forms
    obtain ⟨-, -, -, -, -, subsections, -⟩ := get?_groupFields fallback members forms
    have listed : listed? (groupFields fallback members forms) = some (.arr forms) := by
      rw [listed?, subsections, Option.some_or]
    have inner : (sections (.arr forms) = ((listed? members).map sections).getD [] ↔
          ¬∃ w inner, listed? members = some w ∧ KeptSection w inner ∧ MaskedSection inner) ∧
        (Section.listFits (sections (.arr forms)) = true →
          Section.listFits (((listed? members).map sections).getD []) = true) := by
      subst forms_eq
      cases found : listed? members with
      | none => exact ⟨iff_of_true (sections_arr []) (by simp), fun _ => rfl⟩
      | some w =>
        obtain ⟨same, tight⟩ := below members w rfl found
        refine ⟨same.trans ?_, tight⟩
        simp
    obtain ⟨same, tight⟩ := sectionOf_again_eq_iff fallback format forms
      (((listed? members).map sections).getD []) (sections (.arr forms))
    refine .kept (sectionIn?_obj none _) ?_ ?_
    · rw [listed, Option.map_some, Option.getD_some, same, inner.1]
      simp [MaskedWithin, not_or]
    · rw [listed, Option.map_some, Option.getD_some]
      exact fun fits => tight fits inner.2
  | _ =>
    refine .dropped ?_
    rintro ⟨members, form, -⟩
    cases form

theorem sectionsAgain_arr {items : List Json}
    (each : ∀ v ∈ items, Rereads (sectionIn? none) Section.fits
      (∃ members, v = .obj members ∧ MaskedWithin members) (group? none v) (sectionIn? none v)) :
    SectionsAgain (.arr items) := by
  obtain ⟨same, tight⟩ := Rereads.filterMap each
  rw [SectionsAgain, groupList_arr, sections_arr, sections_arr, Section.listFits_eq, Section.listFits_eq]
  refine ⟨same.trans ⟨?_, ?_⟩, tight⟩
  · intro free members kept masked
    obtain ⟨⟨h⟩ | _⟩ | ⟨outer, w, ⟨h⟩ | _, found, below⟩ := keptSection_iff.1 kept
    · exact free _ h ⟨members, rfl, .inl masked⟩
    · exact free _ h ⟨outer, rfl, .inr ⟨w, members, found, below, masked⟩⟩
  · rintro free v hv ⟨members, rfl, masked | ⟨w, inner, found, below, masked⟩⟩
    · exact free members (.item hv) masked
    · exact free inner (.under (.item hv) found below) masked

theorem sectionsAgain_obj {entries : Fields}
    (each : ∀ e ∈ entries, Rereads (sectionIn? none) Section.fits
      (∃ members, e.2 = .obj members ∧ MaskedWithin members) (group? (some e.1) e.2)
      (sectionIn? (some e.1) e.2)) : SectionsAgain (.obj entries) := by
  obtain ⟨same, tight⟩ := Rereads.filterMap each
  rw [SectionsAgain, groupList_obj, sections_obj, sections_arr, Section.listFits_eq, Section.listFits_eq]
  refine ⟨same.trans ⟨?_, ?_⟩, tight⟩
  · intro free members kept masked
    obtain ⟨_ | h⟩ | ⟨outer, w, _ | h, found, below⟩ := keptSection_iff.1 kept
    · exact free _ h ⟨members, rfl, .inl masked⟩
    · exact free _ h ⟨outer, rfl, .inr ⟨w, members, found, below, masked⟩⟩
  · rintro free ⟨title, v⟩ he ⟨members, rfl, masked | ⟨w, inner, found, below, masked⟩⟩
    · exact free members (.entry he) masked
    · exact free inner (.under (.entry he) found below) masked

/-- The sections that a value lists are read again as they were, unless something is masked in one that is kept,
at any depth. -/
theorem sections_again (v : Json) (format : v.InFormat) : SectionsAgain v := by
  have below (u : Json) (inside : sizeOf u < sizeOf v) (formatted : u.InFormat) :
      ∀ members w, u = .obj members → listed? members = some w → SectionsAgain w := by
    rintro members w rfl found
    have := sizeOf_listed? found
    refine sections_again w ?_
    rcases Option.or_eq_some_iff.1 found with own | ⟨-, older⟩
    · exact Json.inFormat_of_get? formatted own
    · exact Json.inFormat_of_get? formatted older
  cases v with
  | arr items =>
    refine sectionsAgain_arr fun u hu => ?_
    have := List.sizeOf_lt_of_mem hu
    have formatted := Json.itemsInFormat_iff.1 format u hu
    exact section_rereads none u formatted (below u (by rw [Json.arr.sizeOf_spec]; omega) formatted)
  | obj entries =>
    refine sectionsAgain_obj fun e he => ?_
    have := List.sizeOf_lt_of_mem he
    obtain ⟨title, u⟩ := e
    rw [Prod.mk.sizeOf_spec] at this
    have formatted : u.InFormat := Json.membersInFormat_iff.1 format (title, u) he
    exact section_rereads (some title) u formatted (below u (by rw [Json.obj.sizeOf_spec]; omega) formatted)
  | _ =>
    refine ⟨iff_of_true ?_ fun members kept => ?_, fun _ => ?_⟩
    · simp [groupList, sections, sectionItems]
    · obtain ⟨_ | _⟩ | ⟨outer, w, _ | _, -⟩ := keptSection_iff.1 kept
    · simp [sections, Section.listFits]
termination_by sizeOf v
decreasing_by omega

/-- A template is read again as it was, unless something is masked in a section that is kept. -/
theorem template_again {raw : Json} (format : raw.InFormat) :
    (template (Canonical.template raw) = template raw ↔
        ¬∃ v members, Table.get? "sections" (templateFields raw) = some v ∧ KeptSection v members ∧
          MaskedSection members) ∧
      ((template (Canonical.template raw)).fits = true → (template raw).fits = true) := by
  obtain ⟨fields, form, id, sections', moduleHints, extra⟩ := exists_template raw
  have below : (sections (.arr (((Table.get? "sections" (templateFields raw)).map groupList).getD [])) =
        ((Table.get? "sections" (templateFields raw)).map sections).getD [] ↔
          ¬∃ v members, Table.get? "sections" (templateFields raw) = some v ∧ KeptSection v members ∧
            MaskedSection members) ∧
      (Section.listFits
          (sections (.arr (((Table.get? "sections" (templateFields raw)).map groupList).getD []))) = true →
        Section.listFits (((Table.get? "sections" (templateFields raw)).map sections).getD []) = true) := by
    cases found : Table.get? "sections" (templateFields raw) with
    | none => exact ⟨iff_of_true (sections_arr []) (by simp), fun _ => rfl⟩
    | some v =>
      obtain ⟨same, tight⟩ := sections_again v (Json.inFormat_of_get? (membersInFormat_templateFields format) found)
      refine ⟨same.trans ?_, tight⟩
      simp
  rw [form, ← below.1]
  constructor
  · conv => lhs; unfold template
    simp only [templateFields, id, sections', moduleHints, extra, scalar?_again, texts_again, Option.map_some,
      Option.getD_some, Template.mk.injEq, true_and, and_true]
  · intro fits
    simp only [Template.fits, template, templateFields, sections', Option.map_some, Option.getD_some] at fits
    exact below.2 fits

end Loose

/-- Reading the canonical form of a template gives what reading the template gave, an error included, unless the
template is read and something is masked in a section that is kept: a condition's reference, a field's source of
choices or the count to begin with, each by an unusable value under the main name. -/
theorem Template.parse?_canonical_eq_iff {raw : Json} (format : raw.InFormat) :
    parse? (Canonical.template raw) = parse? raw ↔
      parse? raw = none ∨
        ¬∃ v members, Table.get? "sections" (Canonical.templateFields raw) = some v ∧
          KeptSection v members ∧ MaskedSection members := by
  obtain ⟨same, tight⟩ := Loose.template_again format
  rw [← same, parse?_eq, parse?_eq]
  cases fits : (Loose.template raw).fits with
  | false =>
    have refused : Option.guard Template.fits (Loose.template raw) = none := by simp [Option.guard, fits]
    have refused' : Option.guard Template.fits (Loose.template (Canonical.template raw)) = none := by
      have : (Loose.template (Canonical.template raw)).fits ≠ true := fun fits' => by
        rw [tight fits'] at fits
        cases fits
      simp [Option.guard, this]
    rw [refused, refused']
    simp
  | true =>
    have read : Option.guard Template.fits (Loose.template raw) = some (Loose.template raw) := by
      simp [Option.guard, fits]
    rw [read]
    constructor
    · intro again
      exact .inr (Option.guard_eq_some_iff.1 again).1
    · rintro (none | again)
      · cases none
      · rw [again, read]

def regionByName : Json :=
  .obj [("sections", .arr [.obj [("fields", .arr [.obj [("dataSourceName", .str "regions"), ("id", .str "region"),
    ("type", .str "dropdown")]]), ("title", .str "Place")]])]

theorem Template.parse?_canonical_regionByName :
    (parse? regionByName).isSome = true ∧
      parse? (Canonical.template regionByName) = parse? regionByName := by
  have format : regionByName.InFormat := by
    repeat' constructor
  refine ⟨by decide +kernel, (parse?_canonical_eq_iff format).2 (.inr ?_)⟩
  rintro ⟨v, members, found, kept, masked⟩
  obtain rfl := Option.some.inj found
  rcases keptSection_iff.1 kept with ⟨⟨h⟩⟩ | ⟨outer, w, ⟨h⟩, below, -⟩
  · obtain rfl : members = _ := by simpa using h
    rcases masked with ⟨spec, repeats, -⟩ | (⟨v, c, conditions, -⟩ | ⟨c, visibility, -⟩) |
      ⟨v, f, fields, keptField, masked⟩
    · cases repeats
    · cases conditions
    · cases visibility
    · obtain rfl := Option.some.inj fields
      obtain ⟨h, -⟩ := keptField
      obtain rfl : f = _ := by simpa using h
      rcases masked with ⟨⟨v, source, -⟩, -⟩ | ⟨v, c, conditions, -⟩ | ⟨c, visibility, -⟩
      · cases source
      · cases conditions
      · cases visibility
  · obtain rfl : outer = _ := by simpa using h
    cases below

def blankRegion : Json :=
  .obj [("sections", .arr [.obj [("fields", .arr [.obj [("dataSource", .str ""), ("dataSourceName", .str "regions"),
    ("id", .str "region"), ("type", .str "dropdown")]]), ("title", .str "Place")]])]

/-- The field has no source when the template is read, and one when its canonical form is. -/
theorem Template.parse?_canonical_blankRegion :
    ((parse? blankRegion).map fun t => t.sections.map fun s => s.fields.map (·.dataSource)) = some [[none]] ∧
      ((parse? (Canonical.template blankRegion)).map fun t =>
        t.sections.map fun s => s.fields.map (·.dataSource)) = some [[some "regions"]] ∧
      parse? (Canonical.template blankRegion) ≠ parse? blankRegion := by
  have first : ((parse? blankRegion).map fun t => t.sections.map fun s => s.fields.map (·.dataSource)) =
      some [[none]] := by decide +kernel
  have again : ((parse? (Canonical.template blankRegion)).map fun t =>
      t.sections.map fun s => s.fields.map (·.dataSource)) = some [[some "regions"]] := by decide +kernel
  refine ⟨first, again, fun same => ?_⟩
  rw [same, first] at again
  cases again

end Formwork
