import Formwork.Binary64.Text
import Formwork.Json.Numeral
import Formwork.Template.Basic
import Formwork.Value.Basic

/-!
# The canonical form of a template

Templates are written loosely: keyed tables in place of lists, one condition in place of a list,
numbers and truth values as text, several names for one property. The canonical form is a template
with none of that, as a JSON value. Bringing a value to it never fails; what it does not know passes
through as it is, and a field without any id is dropped.
-/
namespace Formwork

namespace Fields

/-- The members with the value of a name recast by `f`, or without the name if `f` gives nothing. -/
def recast (f : Json → Option Json) (key : String) (fields : Fields) : Fields :=
  match Table.get? key fields with
  | none => fields
  | some v =>
    match f v with
    | some w => Table.insert key w fields
    | none => Table.erase key fields

/-- The members with the value under `other` moved to `key`, unless `key` has a value. -/
def adopt (other key : String) (fields : Fields) : Fields :=
  if Table.has key fields then fields
  else
    match Table.get? other fields with
    | some v => Table.insert key v (Table.erase other fields)
    | none => fields

/-- The members with the value under `other` also under `key`, unless `key` has a value. -/
def copy (other key : String) (fields : Fields) : Fields :=
  if Table.has key fields then fields
  else
    match Table.get? other fields with
    | some v => Table.insert key v fields
    | none => fields

end Fields

namespace Canonical

def scalar? : Json → Option String
  | .str s => some s
  | .num n => some n.text
  | .bool b => some (Json.boolText b)
  | _ => none

def text? (v : Json) : Option Json := (scalar? v).map .str

/-- The truth value that a word stands for. -/
def flagOfWord? (word : String) : Option Bool :=
  if word ∈ ["true", "yes", "y", "1"] then some true
  else if word ∈ ["false", "no", "n", "0", ""] then some false
  else none

/-- A truth value, given as such, as a number, or as a word. -/
def flag? : Json → Option Json
  | .bool b => some (.bool b)
  | .num n => some (.bool !n.toBinary64.isZero)
  | .str s => (flagOfWord? (Text.asciiLower (Text.trim s))).map .bool
  | _ => none

def binary64? : Json → Option Binary64
  | .num n => some n.toBinary64
  | .str s =>
    match Binary64.ofText? (Text.trim s) with
    | some (.finite x) => some x
    | _ => none
  | _ => none

def number? (v : Json) : Option Json := (binary64? v).map fun x => .num (.float x)

/-- A count: a number that is not negative, without its fraction and held within 64 bits. -/
def count? (v : Json) : Option Json :=
  match binary64? v with
  | some x =>
    if x.negative && !x.isZero then none else some (Json.ofNat (min x.truncated (Nat.pow 2 64 - 1)))
  | none => none

def bareWord (s : String) : String :=
  String.ofList ((s.toList.filter Char.isAlphanum).map Char.toLower)

/-- The canonical name of a kind of condition. Unknown kinds ask for nothing, so that they never hide
a field. -/
def conditionKind (raw : String) : String :=
  let word := bareWord raw
  if word ∈ ["equals", "equal", "eq", "is"] then "equals"
  else if word ∈ ["notequals", "notequal", "neq", "ne", "isnot"] then "notEquals"
  else if word ∈ ["hasvalue", "notempty", "exists", "filled"] then "hasValue"
  else "always"

def fieldKind (raw : String) : String :=
  let word := Text.asciiLower (Text.trim raw)
  if word ∈ ["text", "string", "input", "email", "phone"] then "text"
  else if word ∈ ["textarea", "multiline"] then "textarea"
  else if word ∈ ["number", "numeric", "integer", "decimal", "currency"] then "number"
  else if word ∈ ["select", "dropdown", "combo"] then "select"
  else if word ∈ ["multiselect", "multi-select", "multi_select"] then "multiselect"
  else if word = "radio" then "radio"
  else if word ∈ ["checkbox", "bool", "boolean", "toggle"] then "checkbox"
  else if word = "date" then "date"
  else if word ∈ ["datetime", "datetime-local", "timestamp"] then "datetime"
  else if word ∈ ["search", "lookup", "autocomplete"] then "search"
  else if word ∈ ["button", "buttons", "buttongroup"] then "button"
  else if word ∈ ["label", "heading", "static"] then "label"
  else "other"

def role? (v : Json) : Option Json :=
  (scalar? v).bind fun raw =>
    if bareWord raw ∈ ["owner", "assignee"] then some (.str "owner") else none

/-- The canonical name of a combinator: `OR` in any case with blanks around it, else `AND`. -/
def combinator (v : Option Json) : String :=
  match v.bind scalar? with
  | some raw => if Text.asciiUpper (Text.trim raw) = "OR" then "OR" else "AND"
  | none => "AND"

def conditionFields (raw : Fields) : Fields :=
  let fields := Fields.recast text? "fieldId"
    (Fields.adopt "dependsOn" "fieldId"
      (Fields.adopt "refFieldId" "fieldId" (Fields.adopt "field" "fieldId" raw)))
  let fields := Fields.adopt "type" "kind" (Fields.adopt "operator" "kind" fields)
  let kind := match (Table.get? "kind" fields).bind scalar? with
    | some k => conditionKind k
    | none => "always"
  let fields := Table.insert "kind" (.str kind) fields
  let joined := combinator
    ((Table.get? "combinator" fields).orElse fun _ => Table.get? "logic" fields)
  let fields := Table.insert "combinator" (.str joined) (Table.erase "logic" fields)
  if Table.has "value" fields then fields else Table.insert "value" .null fields

/-- A condition in canonical form; anything but an object is none. -/
def condition? : Json → Option Json
  | .obj raw => some (.obj (conditionFields raw))
  | _ => none

def conditionList : Option Json → List Json
  | some (.arr items) => items.filterMap condition?
  | some (.obj raw) => [.obj (conditionFields raw)]
  | _ => []

def shortCondition : Option Json → Json
  | some (.obj raw) => .obj (Table.erase "combinator" (conditionFields raw))
  | _ => Json.object [("kind", .str "always")]

def conditionSlots (fields : Fields) : Fields :=
  let conditions := conditionList (Table.get? "conditions" fields)
  let short := shortCondition (Table.get? "visibility" fields)
  Table.insert "visibility" short (Table.insert "conditions" (.arr conditions) fields)

/-- How a section repeats, given as a truth value or as an object. -/
def repeat? : Json → Option Json
  | .bool b => some (Json.object [("enabled", .bool b)])
  | .obj raw =>
    let fields := Fields.adopt "default" "defaultCount" raw
    let fields := Fields.recast flag? "enabled" fields
    let fields := Fields.recast count? "min" fields
    let fields := Fields.recast count? "max" fields
    let fields := Fields.recast count? "defaultCount" fields
    some (.obj (Fields.recast text? "label" fields))
  | _ => none

/-- A list of texts, given as a list of scalars or as a single text. -/
def textList : Option Json → List Json
  | some (.arr items) => items.filterMap text?
  | some (.str s) => [.str s]
  | _ => []

def fillPair? : Json → Option Json
  | .obj raw =>
    let fields := Fields.recast text? "source" (Fields.recast text? "target" raw)
    if Table.has "target" fields && Table.has "source" fields then some (.obj fields) else none
  | _ => none

/-- The pairs to fill, given as a list of objects or as a table from targets to sources. -/
def fillPairs : Option Json → List Json
  | some (.arr items) => items.filterMap fillPair?
  | some (.obj members) =>
    members.filterMap fun e =>
      (scalar? e.2).map fun source => Json.object [("target", .str e.1), ("source", .str source)]
  | _ => []

def lookup? : Json → Option Json
  | .obj raw =>
    let fields := Fields.recast text? "entity" raw
    let fields := Fields.recast text? "method" fields
    let fields := Fields.recast text? "valuePath" fields
    let fields := Fields.recast count? "limit" fields
    let fields := Table.insert "displayPaths" (.arr (textList (Table.get? "displayPaths" fields))) fields
    some (.obj (Table.insert "fill" (.arr (fillPairs (Table.get? "fill" fields))) fields))
  | _ => none

def filledText? (v : Json) : Option Json :=
  (scalar? v).bind fun s => if Text.isBlankText s then none else some (.str s)

def list? : Json → Option Json
  | .arr items => some (.arr items)
  | _ => none

/-- The members of a field with its name, taken from its label or else from its id. -/
def named (fields : Fields) : Fields :=
  let fields := Fields.recast text? "name" fields
  if Table.has "name" fields then fields
  else
    let name := ((Table.get? "label" fields).bind scalar?).orElse fun _ =>
      (Table.get? "id" fields).bind scalar?
    Table.insert "name" (.str (name.getD "")) fields

def fieldFields (identified : Fields) : Fields :=
  let kind := match (Table.get? "type" identified).bind scalar? with
    | some k => fieldKind k
    | none => "text"
  let fields := named (Table.insert "type" (.str kind) identified)
  let fields := Fields.copy "default" "defaultValue" fields
  let fields := Fields.recast filledText? "dataSource" (Fields.copy "dataSourceName" "dataSource" fields)
  let fields := Fields.recast flag? "required" fields
  let fields := Fields.recast flag? "isEnabled" fields
  let fields := Fields.recast number? "order" fields
  let fields := Fields.recast count? "maxOptions" fields
  let fields := conditionSlots fields
  let fields := Fields.recast role? "role" fields
  let fields := Fields.recast list? "options" fields
  Fields.recast lookup? "lookup" fields

/-- A field in canonical form. A field without an id takes the one given, and is dropped if none
is. -/
def field? (fallback : Option String) : Json → Option Json
  | .obj raw =>
    let fields := Fields.recast text? "id" (Fields.adopt "fieldId" "id" raw)
    if Table.has "id" fields then some (.obj (fieldFields fields))
    else fallback.map fun id => .obj (fieldFields (Table.insert "id" (.str id) fields))
  | _ => none

def fieldList : Option Json → List Json
  | some (.arr items) => items.filterMap (field? none)
  | some (.obj members) => members.filterMap fun e => field? (some e.1) e.2
  | _ => []

/-- The members of a section with a title, taken from the fallback if the section's is blank. -/
def titled (fallback : Option String) (fields : Fields) : Fields :=
  let fields := Fields.recast text? "title" fields
  let hasTitle := match Table.get? "title" fields with
    | some (.str s) => !Text.isBlankText s
    | _ => false
  match fallback with
  | some title => if hasTitle then fields else Table.insert "title" (.str title) fields
  | none => fields

def groupFields (fallback : Option String) (raw : Fields) (below : List Json) : Fields :=
  let fields := titled fallback raw
  let fields := Fields.recast text? "baseKey" fields
  let fields := Fields.recast text? "step" fields
  let fields := Fields.recast number? "order" fields
  let fields := Fields.recast flag? "isEnabled" fields
  let fields := conditionSlots fields
  let fields := Fields.recast repeat? "repeat" fields
  let fields := Table.insert "fields" (.arr (fieldList (Table.get? "fields" fields))) fields
  let fields := Fields.adopt "subSections" "subsections" fields
  Table.insert "subsections" (.arr below) fields

mutual

/-- A section in canonical form. A section without a title takes the one given. -/
def group? (fallback : Option String) : Json → Option Json
  | .obj members =>
    let below := (groupsUnder? "subsections" members).orElse fun _ => groupsUnder? "subSections" members
    some (.obj (groupFields fallback members (below.getD [])))
  | _ => none

def groupsUnder? (key : String) : List (String × Json) → Option (List Json)
  | [] => none
  | (k, v) :: members => if k = key then some (groupList v) else groupsUnder? key members

/-- The sections in a list, or in a table from titles to sections. -/
def groupList : Json → List Json
  | .arr items => groupItems items
  | .obj members => groupMembers members
  | _ => []

def groupItems : List Json → List Json
  | [] => []
  | v :: items => (group? none v).toList ++ groupItems items

def groupMembers : List (String × Json) → List Json
  | [] => []
  | (k, v) :: members => (group? (some k) v).toList ++ groupMembers members

end

/-- The members of a template, given as an object or as its list of sections. -/
def templateFields : Json → Fields
  | .obj members => members
  | .arr items => [("sections", .arr items)]
  | _ => []

def template (raw : Json) : Json :=
  let fields := Fields.recast text? "id" (templateFields raw)
  let sections := match Table.get? "sections" fields with
    | some v => groupList v
    | none => []
  let fields := Table.insert "sections" (.arr sections) fields
  .obj (Table.insert "moduleHints" (.arr (textList (Table.get? "moduleHints" fields))) fields)

end Canonical

end Formwork
