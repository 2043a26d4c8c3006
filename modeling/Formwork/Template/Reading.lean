import Formwork.Json.Written
import Formwork.Template.Canonical

/-!
# Reading templates

A template is read from the canonical form of a JSON value. The canonical form always has the right
shape, so the only numbers that are refused are bounds of repetitions and of choices beyond 32 bits.
-/
namespace Formwork

namespace Fields

/-- The part under a name read by `f`, or `default` if the name has no value. -/
def readD {α : Type} (f : Json → Option α) (default : α) (key : String) (fields : Fields) :
    Option α :=
  match Table.get? key fields with
  | some v => f v
  | none => some default

/-- The optional part under a name read by `f`, absent also where the value is `null`. -/
def read? {α : Type} (f : Json → Option α) (key : String) (fields : Fields) : Option (Option α) :=
  match Table.get? key fields with
  | none => some none
  | some .null => some none
  | some v => (f v).map some

def others (known : List String) (fields : Fields) : Fields := fields.filter fun e => e.1 ∉ known

end Fields

namespace Json

def bool? : Json → Option Bool
  | .bool b => some b
  | _ => none

def natBelow? (bound : Nat) : Json → Option Nat
  | .num (.int z) => if 0 ≤ z ∧ z < bound then some z.toNat else none
  | _ => none

/-- A binary64 number, exact for every number that the canonical form holds. -/
def binary64? : Json → Option Binary64
  | .num n => some n.toBinary64
  | _ => none

def listOf? {α : Type} (f : Json → Option α) : Json → Option (List α)
  | .arr items => items.mapM f
  | _ => none

end Json

/-- The first number beyond the bounds that repetitions and choices may have. -/
def boundLimit : Nat := Nat.pow 2 32

namespace ConditionKind

def name : ConditionKind → String
  | .always => "always"
  | .equals => "equals"
  | .notEquals => "notEquals"
  | .hasValue => "hasValue"

def ofName? (s : String) : Option ConditionKind :=
  [ConditionKind.always, .equals, .notEquals, .hasValue].find? fun k => k.name = s

end ConditionKind

namespace Combinator

def name : Combinator → String
  | .and => "AND"
  | .or => "OR"

def ofName? (s : String) : Option Combinator := [Combinator.and, .or].find? fun c => c.name = s

end Combinator

namespace FieldKind

def name : FieldKind → String
  | .text => "text"
  | .textarea => "textarea"
  | .number => "number"
  | .select => "select"
  | .multiselect => "multiselect"
  | .radio => "radio"
  | .checkbox => "checkbox"
  | .date => "date"
  | .datetime => "datetime"
  | .search => "search"
  | .button => "button"
  | .label => "label"
  | .other => "other"

/-- The kind of field with a name; every unknown name is that of the kind `other`. -/
def ofName (s : String) : FieldKind :=
  ([FieldKind.text, .textarea, .number, .select, .multiselect, .radio, .checkbox, .date, .datetime,
    .search, .button, .label].find? fun k => k.name = s).getD .other

end FieldKind

namespace Condition

def ofJson? : Json → Option Condition
  | .obj fields => do
    let fieldId ← Fields.read? Json.text? "fieldId" fields
    let kind ← Fields.readD (fun v => v.text?.bind ConditionKind.ofName?) .always "kind" fields
    let combinator ← Fields.readD (fun v => v.text?.bind Combinator.ofName?) .and "combinator" fields
    some ⟨fieldId, kind, (Table.get? "value" fields).getD .null, combinator⟩
  | _ => none

end Condition

namespace ShortCondition

def ofJson? : Json → Option ShortCondition
  | .obj fields => do
    let kind ← Fields.readD (fun v => v.text?.bind ConditionKind.ofName?) .always "kind" fields
    let fieldId ← Fields.read? Json.text? "fieldId" fields
    some ⟨kind, fieldId, (Table.get? "value" fields).getD .null⟩
  | _ => none

def always : ShortCondition := ⟨.always, none, .null⟩

end ShortCondition

namespace FillPair

def ofJson? : Json → Option FillPair
  | .obj fields => do
    let target ← (Table.get? "target" fields).bind Json.text?
    let source ← (Table.get? "source" fields).bind Json.text?
    some ⟨target, source⟩
  | _ => none

end FillPair

namespace LookupSpec

def ofJson? : Json → Option LookupSpec
  | .obj fields => do
    let entity ← Fields.read? Json.text? "entity" fields
    let method ← Fields.read? Json.text? "method" fields
    let valuePath ← Fields.read? Json.text? "valuePath" fields
    let displayPaths ← Fields.readD (Json.listOf? Json.text?) [] "displayPaths" fields
    let fill ← Fields.readD (Json.listOf? FillPair.ofJson?) [] "fill" fields
    let limit ← Fields.read? (Json.natBelow? (Nat.pow 2 64)) "limit" fields
    some ⟨entity, method, valuePath, displayPaths, fill, limit⟩
  | _ => none

end LookupSpec

namespace Field

/-- The names of the properties that a field gives a meaning to. -/
def properties : List String :=
  ["id", "type", "name", "required", "dataSource", "options", "conditions", "visibility", "lookup",
    "defaultValue", "isEnabled", "order", "role", "maxOptions"]

def roleOfJson? (v : Json) : Option FieldRole :=
  v.text?.bind fun s => if s = "owner" then some .owner else none

def ofJson? : Json → Option Field
  | .obj fields => do
    let id ← (Table.get? "id" fields).bind Json.text?
    let kind ← Fields.readD (fun v => v.text?.map FieldKind.ofName) .text "type" fields
    let name ← Fields.readD Json.text? "" "name" fields
    let required ← Fields.readD Json.bool? false "required" fields
    let dataSource ← Fields.read? Json.text? "dataSource" fields
    let options ← Fields.read? Json.items? "options" fields
    let conditions ← Fields.readD (Json.listOf? Condition.ofJson?) [] "conditions" fields
    let visibility ← Fields.readD ShortCondition.ofJson? .always "visibility" fields
    let lookup ← Fields.read? LookupSpec.ofJson? "lookup" fields
    let isEnabled ← Fields.readD Json.bool? true "isEnabled" fields
    let order ← Fields.read? Json.binary64? "order" fields
    let role ← Fields.read? roleOfJson? "role" fields
    let maxOptions ← Fields.read? (Json.natBelow? boundLimit) "maxOptions" fields
    some {
      id, kind, name, required, dataSource, options, conditions, visibility, lookup
      defaultValue := (Table.get? "defaultValue" fields).getD .null
      isEnabled, order, role, maxOptions
      extra := Fields.others properties fields }
  | _ => none

/-- Reads a field from a loosely written value, which must have an id. -/
def parse? (raw : Json) : Option Field := (Canonical.field? none raw).bind ofJson?

end Field

namespace RepeatSpec

def properties : List String := ["enabled", "min", "max", "defaultCount", "label"]

def ofJson? : Json → Option RepeatSpec
  | .obj fields => do
    let enabled ← Fields.readD Json.bool? false "enabled" fields
    let min ← Fields.read? (Json.natBelow? boundLimit) "min" fields
    let max ← Fields.read? (Json.natBelow? boundLimit) "max" fields
    let defaultCount ← Fields.read? (Json.natBelow? boundLimit) "defaultCount" fields
    let label ← Fields.read? Json.text? "label" fields
    some ⟨enabled, min, max, defaultCount, label, Fields.others properties fields⟩
  | _ => none

def parse? (raw : Json) : Option RepeatSpec := (Canonical.repeat? raw).bind ofJson?

end RepeatSpec

namespace Section

def properties : List String :=
  ["title", "order", "baseKey", "repeat", "fields", "subsections", "conditions", "visibility",
    "isEnabled", "step"]

def ofFields? (fields : Fields) (subsections : List Section) : Option Section := do
  let title ← Fields.readD Json.text? "" "title" fields
  let order ← Fields.read? Json.binary64? "order" fields
  let baseKey ← Fields.read? Json.text? "baseKey" fields
  let repetition ← Fields.read? RepeatSpec.ofJson? "repeat" fields
  let own ← Fields.readD (Json.listOf? Field.ofJson?) [] "fields" fields
  let conditions ← Fields.readD (Json.listOf? Condition.ofJson?) [] "conditions" fields
  let visibility ← Fields.readD ShortCondition.ofJson? .always "visibility" fields
  let isEnabled ← Fields.readD Json.bool? true "isEnabled" fields
  let step ← Fields.read? Json.text? "step" fields
  some {
    title, order, baseKey, repetition
    fields := own
    subsections, conditions, visibility, isEnabled, step
    extra := Fields.others properties fields }

mutual

def ofJson? : Json → Option Section
  | .obj members =>
    match subsections? members with
    | some below => ofFields? members below
    | none => none
  | _ => none

def subsections? : List (String × Json) → Option (List Section)
  | [] => some []
  | (k, v) :: members => if k = "subsections" then list? v else subsections? members

def list? : Json → Option (List Section)
  | .arr items => items? items
  | _ => none

def items? : List Json → Option (List Section)
  | [] => some []
  | v :: items =>
    match ofJson? v, items? items with
    | some s, some rest => some (s :: rest)
    | _, _ => none

end

end Section

namespace Template

def properties : List String := ["id", "sections", "moduleHints"]

def ofJson? : Json → Option Template
  | .obj fields => do
    let id ← Fields.read? Json.text? "id" fields
    let sections ← Fields.readD Section.list? [] "sections" fields
    let moduleHints ← Fields.readD (Json.listOf? Json.text?) [] "moduleHints" fields
    some ⟨id, sections, moduleHints, Fields.others properties fields⟩
  | _ => none

/-- Reads a template from a loosely written value. -/
def parse? (raw : Json) : Option Template := ofJson? (Canonical.template raw)

/-- Reads a template from a JSON text; a text that holds none gives the template without sections. -/
def ofTextLenient (s : String) : Template := ((Json.ofText? s).bind parse?).getD .empty

end Template

end Formwork
