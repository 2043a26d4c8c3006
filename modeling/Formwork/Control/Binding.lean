import Formwork.Config
import Formwork.Control.Basic
import Formwork.Tree.Basic

/-!
# Binding controls to fields

When a form is laid out, each field gets a fresh control. Its value is the one it had before, if there
was one, and otherwise what the template and the circumstances ask for.
-/
namespace Formwork

structure Circumstances where
  config : Config
  /-- Who fills in the form, if this is known. -/
  operator : Option String
  /-- Whether the form has a stored document. -/
  hasStored : Bool
  /-- The current time as text. -/
  now : String

/-- Whether the field names the owner of the document: by its role, or by its id or name where the
configuration allows it. -/
def Field.isOwner (config : Config) (f : Field) : Bool :=
  match f.role with
  | some .owner => true
  | none =>
    config.inferRoles &&
      (Text.contains (Text.asciiLower f.id) "owner" ||
        Text.contains (Text.asciiLower f.name) "owner")

/-- The default value in the template, with the token for the current time replaced. -/
def Field.templateDefault (c : Circumstances) (f : Field) : Json :=
  match f.defaultValue with
  | .str token => .str (if token = c.config.timestampToken then c.now else token)
  | v => v

/-- The value of the field in a form that has none for it. A checkbox is checked if it is enabled. An
owner field without a default names the operator as long as nothing is stored. -/
def Field.freshValue (c : Circumstances) (f : Field) : Json :=
  if f.kind = .checkbox then .bool f.isEnabled
  else
    let value := f.templateDefault c
    let owner := if !value.isFilled && !c.hasStored && f.isOwner c.config then c.operator else none
    match owner with
    | some operator => .str operator
    | none => if f.kind.isMulti && value.isNull then .arr [] else value

/-- The value with which the field is bound: the one it had before, even if that is `null`, or a fresh
one. -/
def Field.initialValue (c : Circumstances) (before : Option Json) (f : Field) : Json :=
  before.getD (f.freshValue c)

/-- The control with which a field is bound. -/
def PlacedField.freshControl (c : Circumstances) (before : Fields) (p : PlacedField) : Control :=
  .fresh (p.field.initialValue c (Table.get? p.controlId before))
    (p.field.required && !p.field.kind.isDecorative) p.field.isEnabled

def ControlSet.ofTree (c : Circumstances) (before : Fields) (t : FormTree) : ControlSet :=
  t.fields.foldl (fun s p => (s.bind? p.controlId p.field.id (p.freshControl c before)).getD s) []

end Formwork
