import Formwork.Proofs.Json
import Formwork.Proofs.Template.Agreement
import Formwork.Proofs.Template.Kept

/-!
# Reading a printed template

A printed template has every property, absent ones as `null`, among the members without a meaning. Read again
it gives the same template: a property that is present keeps its other names from being used, `null` stands
for nothing wherever a property may be absent, and what a value was read as is read as itself.
-/
namespace Formwork

/-- The count is read as itself. -/
def Counts (n : Nat) : Prop := Loose.natural? (Json.ofNat n) = some n

structure LookupSpec.Settled (l : LookupSpec) : Prop where
  limit : ∀ n ∈ l.limit, Counts n

structure Field.Settled (f : Field) : Prop where
  dataSource : ∀ s ∈ f.dataSource, Text.isBlankText s = false
  lookup : ∀ l ∈ f.lookup, l.Settled
  maxOptions : ∀ n ∈ f.maxOptions, Counts n
  extra : Fields.others Field.properties f.extra = f.extra

structure RepeatSpec.Settled (r : RepeatSpec) : Prop where
  min : ∀ n ∈ r.min, Counts n
  max : ∀ n ∈ r.max, Counts n
  defaultCount : ∀ n ∈ r.defaultCount, Counts n
  extra : Fields.others RepeatSpec.properties r.extra = r.extra

/-! ## Members of a printed part -/

section

variable {extra : Fields} {properties : List (String × Json)}

theorem get?_withExtra (key : String) :
    Table.get? key (Table.override extra (Table.ofPairs properties)) =
      (Table.get? key (Table.ofPairs properties)).or (Table.get? key extra) :=
  Table.get?_override (Table.ascending_ofPairs properties) key

theorem others_withExtra {known : List String} (h : ∀ key ∈ Table.names properties, key ∈ known) :
    Fields.others known (Table.override extra (Table.ofPairs properties)) =
      Fields.others known extra := by
  refine Fields.others_override (fun e he => h e.1 ?_) extra
  exact Table.mem_names_ofPairs.1 (List.mem_map.2 ⟨e, he, rfl⟩)

end

namespace Loose

open Canonical

/-- An optional part that is printed as `null` where it is absent. -/
theorem read_ofOption {α : Type} (read : Json → Option α) {print : α → Json} {part : Option α}
    (null : read .null = none) (h : ∀ a ∈ part, read (print a) = some a) :
    read (Json.ofOption print part) = part := by
  cases part with
  | none => exact null
  | some a => exact h a rfl

theorem filterMap_map_of_eq {α : Type} {read : Json → Option α} {print : α → Json} {parts : List α}
    (h : ∀ a ∈ parts, read (print a) = some a) : (parts.map print).filterMap read = parts := by
  induction parts with
  | nil => rfl
  | cons a parts ih =>
    have rest := ih fun b hb => h b (List.mem_cons_of_mem _ hb)
    rw [List.map_cons, List.filterMap_cons_some (h a List.mem_cons_self), rest]

theorem scalar?_ofOption (part : Option String) : scalar? (Json.ofOption .str part) = part :=
  read_ofOption scalar? rfl fun _ _ => rfl

theorem conditionKind_name (k : ConditionKind) : conditionKind (some (.str k.name)) = k := by
  cases k <;> decide

theorem combinator_name (c : Combinator) : combinator (some (.str c.name)) = c := by
  cases c <;> decide

theorem fieldKind_name (k : FieldKind) : fieldKind (some (.str k.name)) = k := by
  cases k <;> decide

theorem conditions_map_toJson (cs : List Condition) :
    conditions (some (.arr (cs.map Condition.toJson))) = cs := by
  refine filterMap_map_of_eq fun c _ => congrArg some ?_
  simp [condition, Table.ofPairs, scalar?_ofOption, conditionKind_name, combinator_name]

theorem shortCondition_toJson (c : ShortCondition) : shortCondition (some c.toJson) = c := by
  simp [ShortCondition.toJson, Json.object, shortCondition, condition, Table.ofPairs,
    scalar?_ofOption, conditionKind_name]

theorem texts_ofTexts (l : List String) : texts (some (Json.ofTexts l)) = l :=
  filterMap_map_of_eq fun _ _ => rfl

theorem fillPairs_map_toJson (pairs : List FillPair) :
    fillPairs (some (.arr (pairs.map FillPair.toJson))) = pairs := by
  refine filterMap_map_of_eq fun p _ => ?_
  simp [FillPair.toJson, Json.object, fillPair?, Table.ofPairs, scalar?]

theorem natural?_ofOption {part : Option Nat} (h : ∀ n ∈ part, Counts n) :
    natural? (Json.ofOption Json.ofNat part) = part :=
  read_ofOption natural? rfl h

theorem lookup_toJson {l : LookupSpec} (h : l.Settled) : l.toJson.fields?.map lookup = some l := by
  simp [LookupSpec.toJson, Json.object, Json.fields?, lookup, Table.ofPairs, scalar?_ofOption,
    texts_ofTexts, fillPairs_map_toJson, natural?_ofOption h.limit]

theorem order_ofOption (order : Option Binary64) :
    binary64? (Json.ofOption Binary64.toJson order) = order :=
  read_ofOption binary64? rfl fun _ _ => rfl

/-- The members of a printed repetition. -/
theorem exists_printed_repetition (r : RepeatSpec) : ∃ members, r.toJson = .obj members ∧
    Table.get? "enabled" members = some (.bool r.enabled) ∧
    Table.get? "min" members = some (Json.ofOption Json.ofNat r.min) ∧
    Table.get? "max" members = some (Json.ofOption Json.ofNat r.max) ∧
    Table.get? "defaultCount" members = some (Json.ofOption Json.ofNat r.defaultCount) ∧
    Table.get? "label" members = some (Json.ofOption .str r.label) ∧
    Fields.others RepeatSpec.properties members = Fields.others RepeatSpec.properties r.extra := by
  refine ⟨_, rfl, ?_, ?_, ?_, ?_, ?_, others_withExtra (by simp [Table.names, RepeatSpec.properties])⟩
  all_goals rw [get?_withExtra]; simp [Table.ofPairs]

theorem repetition?_toJson {r : RepeatSpec} (h : r.Settled) : repetition? r.toJson = some r := by
  obtain ⟨members, form, enabled, min, max, defaultCount, label, extra⟩ := exists_printed_repetition r
  simp [form, repetition?, enabled, min, max, defaultCount, label, truth?, natural?_ofOption h.min,
    natural?_ofOption h.max, natural?_ofOption h.defaultCount, scalar?_ofOption,
    Fields.adopt_of_get? defaultCount, extra, h.extra]

/-- The members of a printed field. -/
theorem exists_printed_field (f : Field) : ∃ members, f.toJson = .obj members ∧
    Table.get? "id" members = some (.str f.id) ∧
    Table.get? "type" members = some (.str f.kind.name) ∧
    Table.get? "name" members = some (.str f.name) ∧
    Table.get? "required" members = some (.bool f.required) ∧
    Table.get? "dataSource" members = some (Json.ofOption .str f.dataSource) ∧
    Table.get? "options" members = some (Json.ofOption .arr f.options) ∧
    Table.get? "conditions" members = some (.arr (f.conditions.map Condition.toJson)) ∧
    Table.get? "visibility" members = some f.visibility.toJson ∧
    Table.get? "lookup" members = some (Json.ofOption LookupSpec.toJson f.lookup) ∧
    Table.get? "defaultValue" members = some f.defaultValue ∧
    Table.get? "isEnabled" members = some (.bool f.isEnabled) ∧
    Table.get? "order" members = some (Json.ofOption Binary64.toJson f.order) ∧
    Table.get? "role" members = some (Json.ofOption FieldRole.toJson f.role) ∧
    Table.get? "maxOptions" members = some (Json.ofOption Json.ofNat f.maxOptions) ∧
    Fields.others Field.properties members = Fields.others Field.properties f.extra := by
  refine ⟨_, rfl, ?_, ?_, ?_, ?_, ?_, ?_, ?_, ?_, ?_, ?_, ?_, ?_, ?_, ?_,
    others_withExtra (by simp [Table.names, Field.properties])⟩
  all_goals rw [get?_withExtra]; simp [Table.ofPairs]

theorem field?_toJson {f : Field} (h : f.Settled) : field? none f.toJson = some f := by
  obtain ⟨members, form, id, kind, name, required, dataSource, options, conditions, visibility, lookup,
    defaultValue, isEnabled, order, role, maxOptions, extra⟩ := exists_printed_field f
  have dataSource' : filledText? (Json.ofOption .str f.dataSource) = f.dataSource :=
    read_ofOption filledText? rfl fun s hs => by simp [filledText?, scalar?, h.dataSource s hs]
  have options' : (Json.ofOption .arr f.options).items? = f.options :=
    read_ofOption Json.items? rfl fun _ _ => rfl
  have lookup' : (Json.ofOption LookupSpec.toJson f.lookup).fields?.map Loose.lookup = f.lookup :=
    read_ofOption (·.fields?.map Loose.lookup) rfl fun l hl => lookup_toJson (h.lookup l hl)
  have role' : role? (Json.ofOption FieldRole.toJson f.role) = f.role :=
    read_ofOption role? rfl fun r _ => by cases r; decide
  simp [form, field?, field, id, kind, name, required, dataSource, options, conditions, visibility,
    lookup, defaultValue, isEnabled, order, role, maxOptions, scalar?, truth?, fieldKind_name,
    dataSource', options', lookup', role', conditions_map_toJson, shortCondition_toJson,
    order_ofOption, natural?_ofOption h.maxOptions, Fields.adopt_of_get? id, extra, h.extra]

theorem fields_map_toJson {fs : List Field} (h : ∀ f ∈ fs, f.Settled) :
    fields (some (.arr (fs.map Field.toJson))) = fs :=
  filterMap_map_of_eq fun f hf => field?_toJson (h f hf)

/-! ## What reading gives is settled -/

theorem inFormat_binary64? {v : Json} {x : Binary64} (h : v.InFormat) (read : binary64? v = some x) :
    x.InFormat := by
  cases v with
  | num n =>
    obtain rfl := Option.some.inj read
    cases n with
    | int z => exact Binary64.inFormat_ofInt z
    | float x => exact h
  | str s =>
    simp only [binary64?] at read
    split at read
    · rename_i y found
      obtain rfl := Option.some.inj read
      exact Binary64.inFormat_of_ofText? found
    · cases read
  | _ => cases read

theorem natural?_of_binary64? {v : Json} {x : Binary64} (number : binary64? v = some x)
    (sign : x.negative = false) : natural? v = some (min x.truncated (Nat.pow 2 64 - 1)) := by
  simp [natural?, number, sign]

theorem natural?_ofNat (n : Nat) :
    natural? (Json.ofNat n) = some (min (Binary64.ofNat n).truncated (Nat.pow 2 64 - 1)) := by
  have number : binary64? (Json.ofNat n) = some (Binary64.ofInt n) := rfl
  rw [Binary64.ofInt_natCast] at number
  rw [natural?_of_binary64? number rfl, Binary64.truncated_withSign]

/-- A count that a value stands for is read as itself, the greatest one too, although the number nearest to
it is the next one. -/
theorem counts_of_natural? {v : Json} {n : Nat} (h : v.InFormat) (read : natural? v = some n) :
    Counts n := by
  have word : Nat.pow 2 64 - 1 < Nat.pow 2 64 := by decide
  unfold Counts
  rw [natural?_ofNat]
  obtain ⟨x, number, count⟩ := Option.bind_eq_some_iff.1 read
  split at count
  · cases count
  · obtain rfl := Option.some.inj count
    rcases Nat.le_total x.truncated (Nat.pow 2 64 - 1) with small | great
    · rw [Nat.min_eq_left small]
      have exact := Binary64.truncated_ofNat (Nat.lt_of_le_of_lt small word)
        (Binary64.hasUnits_truncated (inFormat_binary64? h number))
      rw [exact, Nat.min_eq_left small]
    · rw [Nat.min_eq_right great]
      decide +kernel

theorem counts_of_bind {part : Option Json} (h : ∀ v ∈ part, v.InFormat) :
    ∀ n ∈ part.bind natural?, Counts n := by
  intro n hn
  obtain ⟨v, found, read⟩ := Option.bind_eq_some_iff.1 hn
  exact counts_of_natural? (h v found) read

section

variable {raw : Fields} (h : Json.MembersInFormat raw)

include h

theorem inFormat_get? {key : String} : ∀ v ∈ Table.get? key raw, v.InFormat :=
  fun _ found => Json.inFormat_of_get? h found

theorem settled_lookup : (lookup raw).Settled where
  limit := counts_of_bind (inFormat_get? h)

theorem settled_field (id : String) : (field id raw).Settled where
  dataSource s hs := by
    obtain ⟨v, -, read⟩ := Option.bind_eq_some_iff.1 hs
    obtain ⟨t, -, filled⟩ := Option.bind_eq_some_iff.1 read
    split at filled
    · cases filled
    · rename_i filledText
      obtain rfl := Option.some.inj filled
      simpa using filledText
  lookup l hl := by
    obtain ⟨v, found, read⟩ := Option.bind_eq_some_iff.1 hl
    obtain ⟨members, object, rfl⟩ := Option.map_eq_some_iff.1 read
    cases v with
    | obj members' =>
      obtain rfl : members' = members := Option.some.inj object
      exact settled_lookup (Json.inFormat_of_get? h found)
    | _ => cases object
  maxOptions := counts_of_bind (inFormat_get? h)
  extra := Fields.others_others ..

theorem settled_repetition {r : RepeatSpec} (read : repetition? (.obj raw) = some r) : r.Settled := by
  obtain rfl := Option.some.inj read
  exact {
    min := counts_of_bind (inFormat_get? h)
    max := counts_of_bind (inFormat_get? h)
    defaultCount := counts_of_bind fun v found => by
      rcases Option.or_eq_some_iff.1 found with own | ⟨-, older⟩
      · exact Json.inFormat_of_get? h own
      · exact Json.inFormat_of_get? h older
    extra := Fields.others_others .. }

end

theorem settled_of_repetition? {v : Json} (h : v.InFormat) {r : RepeatSpec}
    (read : repetition? v = some r) : r.Settled := by
  cases v with
  | obj raw => exact settled_repetition h read
  | bool b =>
    obtain rfl := Option.some.inj read
    exact { min := nofun, max := nofun, defaultCount := nofun, extra := rfl }
  | _ => cases read

theorem keptField_inFormat {v : Json} {members : Fields} (h : KeptField v members)
    (format : v.InFormat) : Json.MembersInFormat members := by
  cases h with
  | item h => exact Json.itemsInFormat_iff.1 format _ h
  | entry h => exact Json.membersInFormat_iff.1 format _ h

theorem keptSection_inFormat {v : Json} {members : Fields} (h : KeptSection v members)
    (format : v.InFormat) : Json.MembersInFormat members := by
  induction h with
  | item h => exact Json.itemsInFormat_iff.1 format _ h
  | entry h => exact Json.membersInFormat_iff.1 format _ h
  | under above h kept ihAbove ihKept =>
    have outer := ihAbove format
    rcases Option.or_eq_some_iff.1 h with own | ⟨-, older⟩
    · exact ihKept (Json.inFormat_of_get? outer own)
    · exact ihKept (Json.inFormat_of_get? outer older)

theorem settled_of_mem_fields {part : Option Json} (h : ∀ v ∈ part, v.InFormat) {f : Field}
    (mem : f ∈ fields part) : f.Settled := by
  cases part with
  | none => cases mem
  | some v =>
    obtain ⟨id, members, kept, rfl⟩ := exists_keptField mem
    exact settled_field (keptField_inFormat kept (h v rfl)) id

/-! ## Sections and templates -/

theorem title_str (s : String) : title none (some (.str s)) = s := by
  by_cases blank : Text.isBlankText s <;> simp [title, scalar?, blank, Option.filter]

/-- The members of a printed section. -/
theorem exists_printed_section (s : Section) : ∃ members, s.toJson = .obj members ∧
    Table.get? "title" members = some (.str s.title) ∧
    Table.get? "order" members = some (Json.ofOption Binary64.toJson s.order) ∧
    Table.get? "baseKey" members = some (Json.ofOption .str s.baseKey) ∧
    Table.get? "repeat" members = some (Json.ofOption RepeatSpec.toJson s.repetition) ∧
    Table.get? "fields" members = some (.arr (s.fields.map Field.toJson)) ∧
    Table.get? "subsections" members = some (.arr (Section.listToJson s.subsections)) ∧
    Table.get? "conditions" members = some (.arr (s.conditions.map Condition.toJson)) ∧
    Table.get? "visibility" members = some s.visibility.toJson ∧
    Table.get? "isEnabled" members = some (.bool s.isEnabled) ∧
    Table.get? "step" members = some (Json.ofOption .str s.step) ∧
    Fields.others Section.properties members = Fields.others Section.properties s.extra := by
  obtain ⟨title, order, baseKey, repetition, fields, subsections, conditions, visibility, isEnabled, step,
    extra⟩ := s
  rw [Section.toJson]
  refine ⟨_, rfl, ?_, ?_, ?_, ?_, ?_, ?_, ?_, ?_, ?_, ?_,
    others_withExtra (by simp [Table.names, Section.properties])⟩
  all_goals rw [get?_withExtra]; simp [Table.ofPairs]

/-- A printed section is read as itself, if what it holds is and the sections below it are. -/
theorem sectionIn?_toJson {s : Section} (repetition : ∀ r ∈ s.repetition, r.Settled)
    (fields : ∀ f ∈ s.fields, f.Settled) (extra : Fields.others Section.properties s.extra = s.extra)
    (below : sections (.arr (Section.listToJson s.subsections)) = s.subsections) :
    sectionIn? none s.toJson = some s := by
  obtain ⟨members, form, title, order, baseKey, repetition', fields', subsections, conditions,
    visibility, isEnabled, step, extra'⟩ := exists_printed_section s
  have repeats : repetition? (Json.ofOption RepeatSpec.toJson s.repetition) = s.repetition :=
    read_ofOption repetition? rfl fun r hr => repetition?_toJson (repetition r hr)
  rw [form, sectionIn?_obj]
  simp [listed?, sectionOf, title, order, baseKey, repetition', fields', subsections, conditions,
    visibility, isEnabled, step, title_str, order_ofOption, scalar?_ofOption, repeats,
    fields_map_toJson fields, below, conditions_map_toJson, shortCondition_toJson, truth?,
    Fields.adopt_of_get? subsections, extra', extra]
  cases s
  rfl

theorem sections_listToJson {below : List Section}
    (h : ∀ s ∈ below, sectionIn? none s.toJson = some s) :
    sections (.arr (Section.listToJson below)) = below := by
  have printed : Section.listToJson below = below.map Section.toJson := by
    clear h
    induction below with
    | nil => rfl
    | cons s below ih => rw [Section.listToJson, ih, List.map_cons]
  rw [printed, sections_arr]
  exact filterMap_map_of_eq h

/-- Each section that is read is read as itself once printed. -/
theorem sectionIn?_toJson_of_mem (v : Json) (h : v.InFormat) {s : Section} (mem : s ∈ sections v) :
    sectionIn? none s.toJson = some s := by
  obtain ⟨fallback, members, said, kept, smaller⟩ := exists_keptSection mem
  have format := keptSection_inFormat kept h
  rw [sectionIn?_obj] at said
  obtain rfl := Option.some.inj said
  refine sectionIn?_toJson ?_ ?_ ?_ ?_
  · intro r hr
    obtain ⟨w, found, read⟩ := Option.bind_eq_some_iff.1 hr
    exact settled_of_repetition? (Json.inFormat_of_get? format found) read
  · exact fun f hf => settled_of_mem_fields (inFormat_get? format) hf
  · exact Fields.others_others ..
  · refine sections_listToJson fun s hs => ?_
    cases found : listed? members with
    | none => simp [sectionOf, found] at hs
    | some w =>
      have := sizeOf_listed? found
      have formatBelow : w.InFormat := by
        rcases Option.or_eq_some_iff.1 found with own | ⟨-, older⟩
        · exact Json.inFormat_of_get? format own
        · exact Json.inFormat_of_get? format older
      exact sectionIn?_toJson_of_mem w formatBelow (by simpa [sectionOf, found] using hs)
termination_by sizeOf v

/-- The members of a printed template. -/
theorem exists_printed_template (t : Template) : ∃ members, t.toJson = .obj members ∧
    Table.get? "id" members = some (Json.ofOption .str t.id) ∧
    Table.get? "sections" members = some (.arr (Section.listToJson t.sections)) ∧
    Table.get? "moduleHints" members = some (Json.ofTexts t.moduleHints) ∧
    Fields.others Template.properties members = Fields.others Template.properties t.extra := by
  refine ⟨_, rfl, ?_, ?_, ?_, others_withExtra (by simp [Table.names, Template.properties])⟩
  all_goals rw [get?_withExtra]; simp [Table.ofPairs]

theorem membersInFormat_templateFields {raw : Json} (h : raw.InFormat) :
    Json.MembersInFormat (templateFields raw) := by
  cases raw with
  | obj members => exact h
  | arr items => exact ⟨h, trivial⟩
  | _ => trivial

/-- What a value says, printed, says the same. -/
theorem template_toJson {raw : Json} (h : raw.InFormat) :
    template (template raw).toJson = template raw := by
  obtain ⟨members, form, id, sections', moduleHints, extra⟩ := exists_printed_template (template raw)
  have below : sections (.arr (Section.listToJson (template raw).sections)) =
      (template raw).sections := by
    refine sections_listToJson fun s hs => ?_
    cases found : Table.get? "sections" (templateFields raw) with
    | none => simp [template, found] at hs
    | some v =>
      have format := Json.inFormat_of_get? (membersInFormat_templateFields h) found
      exact sectionIn?_toJson_of_mem v format (by simpa [template, found] using hs)
  have others : Fields.others Template.properties (template raw).extra = (template raw).extra :=
    Fields.others_others ..
  rw [form]
  conv => lhs; unfold template
  simp [templateFields, id, sections', moduleHints, extra, scalar?_ofOption, below, texts_ofTexts,
    others]

end Loose

/-- Reading a printed template gives it again. -/
theorem Template.parse?_toJson {raw : Json} {t : Template} (format : raw.InFormat)
    (h : parse? raw = some t) : parse? t.toJson = some t := by
  rw [parse?_eq] at h ⊢
  obtain ⟨said, fits⟩ := Option.guard_eq_some_iff.1 h
  rw [← said, Loose.template_toJson format, said]
  exact Option.guard_eq_some_iff.2 ⟨rfl, said ▸ fits⟩

/-- A template with sections in a table, aliases, and a limit beyond what the numbers of the format keep
apart. -/
def looseContacts : Json :=
  Json.object [("version", Json.ofNat 3), ("sections", Json.object [
    ("Contacts", Json.object [
      ("repeat", Json.object [("enabled", .str "yes"), ("default", .str "2"), ("unit", .str "row")]),
      ("fields", Json.object [
        ("name", Json.object [("required", Json.ofNat 1), ("default", .null)]),
        ("region", Json.object [("type", .str "lookup"), ("dataSourceName", .str "regions"),
          ("lookup", Json.object [("fill", Json.object [("zone", .str "zone")]),
            ("limit", Json.ofNat 18446744073709551615)])])]),
      ("subSections", .arr [Json.object [("title", .str "Notes"), ("order", .str "1.5")]])])])]

theorem Template.parse?_toJson_looseContacts :
    ∃ t, parse? looseContacts = some t ∧ parse? t.toJson = some t := by
  have format : looseContacts.InFormat := by
    unfold looseContacts
    repeat' first | refine Json.inFormat_object ?_ | exact trivial | constructor
  have fits : (Loose.template looseContacts).fits = true := by decide +kernel
  have read : parse? looseContacts = some (Loose.template looseContacts) := by
    rw [parse?_eq]
    exact Option.guard_eq_some_iff.2 ⟨rfl, fits⟩
  exact ⟨_, read, parse?_toJson format read⟩

end Formwork
