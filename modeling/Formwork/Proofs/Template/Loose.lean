import Formwork.Proofs.Template.Members

/-!
# What a loosely written template says

A template is brought to its canonical form and read from there. This module reads it in one step: what
each part is, given the values under its names in the loosely written object, and when a number in it is
beyond its bound. The two ways agree, so a template is refused only for such a number.
-/
namespace Formwork

namespace Loose

open Canonical

def truth? : Json → Option Bool
  | .bool b => some b
  | .num n => some !n.toBinary64.isZero
  | .str s => flagOfWord? (Text.asciiLower (Text.trim s))
  | _ => none

def natural? (v : Json) : Option Nat :=
  (binary64? v).bind fun x =>
    if x.negative && !x.isZero then none else some (min x.truncated (Nat.pow 2 64 - 1))

def conditionKind (v : Option Json) : ConditionKind :=
  ((v.bind scalar?).bind fun k => ConditionKind.ofName? (Canonical.conditionKind k)).getD .always

def combinator (v : Option Json) : Combinator :=
  (Combinator.ofName? (Canonical.combinator v)).getD .and

def condition (raw : Fields) : Condition where
  fieldId := ((((Table.get? "fieldId" raw).or (Table.get? "field" raw)).or
    (Table.get? "refFieldId" raw)).or (Table.get? "dependsOn" raw)).bind scalar?
  kind := conditionKind
    (((Table.get? "kind" raw).or (Table.get? "operator" raw)).or (Table.get? "type" raw))
  value := (Table.get? "value" raw).getD .null
  combinator := combinator ((Table.get? "combinator" raw).or (Table.get? "logic" raw))

def conditions : Option Json → List Condition
  | some (.arr items) => items.filterMap fun v => v.fields?.map condition
  | some (.obj raw) => [condition raw]
  | _ => []

def shortCondition : Option Json → ShortCondition
  | some (.obj raw) =>
    let c := condition raw
    ⟨c.kind, c.fieldId, c.value⟩
  | _ => .always

def texts : Option Json → List String
  | some (.arr items) => items.filterMap scalar?
  | some (.str s) => [s]
  | _ => []

/-- The pair to fill, if it has a target and a source. -/
def fillPair? : Json → Option FillPair
  | .obj raw =>
    match (Table.get? "target" raw).bind scalar?, (Table.get? "source" raw).bind scalar? with
    | some target, some source => some ⟨target, source⟩
    | _, _ => none
  | _ => none

/-- The pairs to fill, given as a list or as a table from targets to sources. -/
def fillPairs : Option Json → List FillPair
  | some (.arr items) => items.filterMap fillPair?
  | some (.obj members) => members.filterMap fun e => (scalar? e.2).map fun source => ⟨e.1, source⟩
  | _ => []

def lookup (raw : Fields) : LookupSpec where
  entity := (Table.get? "entity" raw).bind scalar?
  method := (Table.get? "method" raw).bind scalar?
  valuePath := (Table.get? "valuePath" raw).bind scalar?
  displayPaths := texts (Table.get? "displayPaths" raw)
  fill := fillPairs (Table.get? "fill" raw)
  limit := (Table.get? "limit" raw).bind natural?

def fieldKind (v : Option Json) : FieldKind :=
  ((v.bind scalar?).map fun k => FieldKind.ofName (Canonical.fieldKind k)).getD .text

def role? (v : Json) : Option FieldRole :=
  (scalar? v).bind fun raw =>
    if bareWord raw ∈ ["owner", "assignee"] then some .owner else none

def filledText? (v : Json) : Option String :=
  (scalar? v).bind fun s => if Text.isBlankText s then none else some s

def field (id : String) (raw : Fields) : Field where
  id := id
  kind := fieldKind (Table.get? "type" raw)
  name := (((Table.get? "name" raw).bind scalar?).or ((Table.get? "label" raw).bind scalar?)).getD id
  required := ((Table.get? "required" raw).bind truth?).getD false
  dataSource := ((Table.get? "dataSource" raw).or (Table.get? "dataSourceName" raw)).bind filledText?
  options := (Table.get? "options" raw).bind Json.items?
  conditions := conditions (Table.get? "conditions" raw)
  visibility := shortCondition (Table.get? "visibility" raw)
  lookup := (Table.get? "lookup" raw).bind fun v => v.fields?.map lookup
  defaultValue := ((Table.get? "defaultValue" raw).or (Table.get? "default" raw)).getD .null
  isEnabled := ((Table.get? "isEnabled" raw).bind truth?).getD true
  order := (Table.get? "order" raw).bind binary64?
  role := (Table.get? "role" raw).bind role?
  maxOptions := (Table.get? "maxOptions" raw).bind natural?
  extra := Fields.others Field.properties (Fields.adopt "fieldId" "id" raw)

/-- The field that a value stands for, if it has an id or is given one. -/
def field? (fallback : Option String) : Json → Option Field
  | .obj raw =>
    ((((Table.get? "id" raw).or (Table.get? "fieldId" raw)).bind scalar?).or fallback).map fun id =>
      field id raw
  | _ => none

/-- The fields that are given as a list or as a table from ids to fields. -/
def fields : Option Json → List Field
  | some (.arr items) => items.filterMap (field? none)
  | some (.obj members) => members.filterMap fun e => field? (some e.1) e.2
  | _ => []

/-- How a section repeats, given as a truth value or as an object. -/
def repetition? : Json → Option RepeatSpec
  | .bool b => some ⟨b, none, none, none, none, []⟩
  | .obj raw => some {
      enabled := ((Table.get? "enabled" raw).bind truth?).getD false
      min := (Table.get? "min" raw).bind natural?
      max := (Table.get? "max" raw).bind natural?
      defaultCount := ((Table.get? "defaultCount" raw).or (Table.get? "default" raw)).bind natural?
      label := (Table.get? "label" raw).bind scalar?
      extra := Fields.others RepeatSpec.properties (Fields.adopt "default" "defaultCount" raw) }
  | _ => none

/-- The title of a section: its own unless that is blank, or else the one it is given. -/
def title (fallback : Option String) (v : Option Json) : String :=
  let own := v.bind scalar?
  ((own.filter fun s => !Text.isBlankText s).or fallback).getD (own.getD "")

def sectionOf (fallback : Option String) (raw : Fields) (below : List Section) : Section where
  title := title fallback (Table.get? "title" raw)
  order := (Table.get? "order" raw).bind binary64?
  baseKey := (Table.get? "baseKey" raw).bind scalar?
  repetition := (Table.get? "repeat" raw).bind repetition?
  fields := fields (Table.get? "fields" raw)
  subsections := below
  conditions := conditions (Table.get? "conditions" raw)
  visibility := shortCondition (Table.get? "visibility" raw)
  isEnabled := ((Table.get? "isEnabled" raw).bind truth?).getD true
  step := (Table.get? "step" raw).bind scalar?
  extra := Fields.others Section.properties (Fields.adopt "subSections" "subsections" raw)

mutual

def sectionIn? (fallback : Option String) : Json → Option Section
  | .obj members =>
    let below := (sectionsUnder? "subsections" members).orElse fun _ =>
      sectionsUnder? "subSections" members
    some (sectionOf fallback members (below.getD []))
  | _ => none

def sectionsUnder? (key : String) : List (String × Json) → Option (List Section)
  | [] => none
  | (k, v) :: members => if k = key then some (sections v) else sectionsUnder? key members

/-- The sections in a list, or in a table from titles to sections. -/
def sections : Json → List Section
  | .arr items => sectionItems items
  | .obj members => sectionMembers members
  | _ => []

def sectionItems : List Json → List Section
  | [] => []
  | v :: items => (sectionIn? none v).toList ++ sectionItems items

def sectionMembers : List (String × Json) → List Section
  | [] => []
  | (k, v) :: members => (sectionIn? (some k) v).toList ++ sectionMembers members

end

theorem sectionsUnder?_eq (key : String) (members : Fields) :
    sectionsUnder? key members = (Table.get? key members).map sections := by
  induction members with
  | nil => simp [sectionsUnder?, Table.get?]
  | cons e members ih =>
    obtain ⟨k, v⟩ := e
    by_cases same : k = key <;> simp [sectionsUnder?, Table.get?, same, ih]

def listed? (members : Fields) : Option Json :=
  (Table.get? "subsections" members).or (Table.get? "subSections" members)

theorem sectionIn?_obj (fallback : Option String) (members : Fields) : sectionIn? fallback (.obj members) =
    some (sectionOf fallback members (((listed? members).map sections).getD [])) := by
  cases own : Table.get? "subsections" members <;>
    simp [sectionIn?, sectionsUnder?_eq, listed?, own]

theorem sections_arr (items : List Json) : sections (.arr items) = items.filterMap (sectionIn? none) := by
  rw [sections]
  induction items with
  | nil => simp [sectionItems]
  | cons v items ih => cases h : sectionIn? none v <;> simp [sectionItems, ih, h]

theorem sections_obj (members : Fields) :
    sections (.obj members) = members.filterMap fun e => sectionIn? (some e.1) e.2 := by
  rw [sections]
  induction members with
  | nil => simp [sectionMembers]
  | cons e members ih =>
    obtain ⟨k, v⟩ := e
    cases h : sectionIn? (some k) v <;> simp [sectionMembers, ih, h]

def template (raw : Json) : Template :=
  let fields := templateFields raw
  { id := (Table.get? "id" fields).bind scalar?
    sections := ((Table.get? "sections" fields).map sections).getD []
    moduleHints := texts (Table.get? "moduleHints" fields)
    extra := Fields.others Template.properties fields }

end Loose

/-- Whether the bounds of the repetition are below 32 bits. -/
def RepeatSpec.fits (r : RepeatSpec) : Bool :=
  r.min.all (· < boundLimit) && r.max.all (· < boundLimit) && r.defaultCount.all (· < boundLimit)

def Field.fits (f : Field) : Bool := f.maxOptions.all (· < boundLimit)

mutual

/-- Whether every bound in the section is below 32 bits. -/
def Section.fits : Section → Bool
  | ⟨_, _, _, repetition, fields, subsections, _, _, _, _, _⟩ =>
    repetition.all RepeatSpec.fits && fields.all Field.fits && Section.listFits subsections

def Section.listFits : List Section → Bool
  | [] => true
  | s :: rest => Section.fits s && Section.listFits rest

end

theorem Section.listFits_eq (sections : List Section) : listFits sections = sections.all fits := by
  induction sections with
  | nil => rfl
  | cons s rest ih => rw [listFits, ih, List.all_cons]

def Template.fits (t : Template) : Bool := Section.listFits t.sections

end Formwork
