import Formwork.Template.Reading

/-!
# Writing templates

Templates and their parts as JSON values with every property present, absent ones as `null`, and the
properties without meaning among them. Reading such a value gives the template again.
-/
namespace Formwork

/-- The properties together with those without meaning. -/
def Fields.withExtra (extra : Fields) (properties : List (String × Json)) : Json :=
  .obj (Table.override extra (Table.ofPairs properties))

def Binary64.toJson (x : Binary64) : Json := .num (.float x)

def Condition.toJson (c : Condition) : Json :=
  Json.object [("fieldId", Json.ofOption .str c.fieldId), ("kind", .str c.kind.name),
    ("value", c.value), ("combinator", .str c.combinator.name)]

def ShortCondition.toJson (c : ShortCondition) : Json :=
  Json.object [("kind", .str c.kind.name), ("fieldId", Json.ofOption .str c.fieldId),
    ("value", c.value)]

def FillPair.toJson (p : FillPair) : Json :=
  Json.object [("target", .str p.target), ("source", .str p.source)]

def LookupSpec.toJson (l : LookupSpec) : Json :=
  Json.object [("entity", Json.ofOption .str l.entity), ("method", Json.ofOption .str l.method),
    ("valuePath", Json.ofOption .str l.valuePath), ("displayPaths", Json.ofTexts l.displayPaths),
    ("fill", .arr (l.fill.map FillPair.toJson)), ("limit", Json.ofOption Json.ofNat l.limit)]

def FieldRole.toJson : FieldRole → Json
  | .owner => .str "owner"

def Field.toJson (f : Field) : Json :=
  Fields.withExtra f.extra
    [("id", .str f.id), ("type", .str f.kind.name), ("name", .str f.name),
      ("required", .bool f.required), ("dataSource", Json.ofOption .str f.dataSource),
      ("options", Json.ofOption .arr f.options),
      ("conditions", .arr (f.conditions.map Condition.toJson)),
      ("visibility", f.visibility.toJson), ("lookup", Json.ofOption LookupSpec.toJson f.lookup),
      ("defaultValue", f.defaultValue), ("isEnabled", .bool f.isEnabled),
      ("order", Json.ofOption Binary64.toJson f.order),
      ("role", Json.ofOption FieldRole.toJson f.role),
      ("maxOptions", Json.ofOption Json.ofNat f.maxOptions)]

def RepeatSpec.toJson (r : RepeatSpec) : Json :=
  Fields.withExtra r.extra
    [("enabled", .bool r.enabled), ("min", Json.ofOption Json.ofNat r.min),
      ("max", Json.ofOption Json.ofNat r.max),
      ("defaultCount", Json.ofOption Json.ofNat r.defaultCount),
      ("label", Json.ofOption .str r.label)]

namespace Section

mutual

def toJson : Section → Json
  | ⟨title, order, baseKey, repetition, fields, subsections, conditions, visibility, isEnabled, step,
      extra⟩ =>
    Fields.withExtra extra
      [("title", .str title), ("order", Json.ofOption Binary64.toJson order),
        ("baseKey", Json.ofOption .str baseKey),
        ("repeat", Json.ofOption RepeatSpec.toJson repetition),
        ("fields", .arr (fields.map Field.toJson)), ("subsections", .arr (listToJson subsections)),
        ("conditions", .arr (conditions.map Condition.toJson)), ("visibility", visibility.toJson),
        ("isEnabled", .bool isEnabled), ("step", Json.ofOption .str step)]

def listToJson : List Section → List Json
  | [] => []
  | s :: rest => toJson s :: listToJson rest

end

end Section

def Template.toJson (t : Template) : Json :=
  Fields.withExtra t.extra
    [("id", Json.ofOption .str t.id), ("sections", .arr (Section.listToJson t.sections)),
      ("moduleHints", Json.ofTexts t.moduleHints)]

end Formwork
