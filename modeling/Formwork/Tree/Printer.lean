import Formwork.Template.Printer
import Formwork.Tree.Basic

/-!
# Writing trees

Trees as JSON values, for views that show a form.
-/
namespace Formwork

def Frame.toJson (f : Frame) : Json :=
  Json.object [("prefix", .str f.stem), ("index", Json.ofNat f.index)]

def Scope.toJson (scope : Scope) : Json := .arr (scope.map Frame.toJson)

def PlacedField.toJson (f : PlacedField) : Json :=
  Json.object [("controlId", .str f.controlId),
    ("instanceIndex", Json.ofOption Json.ofNat f.scope.index?), ("scope", f.scope.toJson),
    ("conditions", .arr (f.conditions.map Condition.toJson)), ("field", f.field.toJson)]

mutual

def Group.toJson : Group → Json
  | ⟨key, title, kind, templateEnabled, conditions, scope, repeatKey, instances⟩ =>
    Json.object [("key", .str key), ("title", .str title), ("kind", .str kind.name),
      ("templateEnabled", .bool templateEnabled),
      ("conditions", .arr (conditions.map Condition.toJson)), ("scope", Scope.toJson scope),
      ("repeatKey", Json.ofOption .str repeatKey),
      ("instances", .arr (GroupInstance.listToJson instances))]

def GroupInstance.listToJson : List GroupInstance → List Json
  | [] => []
  | ⟨index, label, fields, children⟩ :: rest =>
    Json.object [("index", Json.ofOption Json.ofNat index), ("label", Json.ofOption .str label),
      ("fields", .arr (fields.map PlacedField.toJson)),
      ("children", .arr (Group.listToJson children))] :: GroupInstance.listToJson rest

def Group.listToJson : List Group → List Json
  | [] => []
  | g :: rest => Group.toJson g :: Group.listToJson rest

end

def FormTree.toJson (t : FormTree) : Json :=
  Json.object [("groups", .arr (Group.listToJson t.groups))]

end Formwork
