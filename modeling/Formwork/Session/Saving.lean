import Formwork.Session.Loading

/-!
# Saving

A form is saved as the stored document with the values of the active step in it, once every control
that has to be filled in is. A saved document is the new starting point.
-/
namespace Formwork

/-- What to call the field when it is missing: its name, or its id if that is blank. -/
def Field.caption (f : Field) : String := if Text.isBlankText f.name then f.id else f.name

namespace Session

/-- The controls that have to be filled in and are not, in document order. -/
def violations (s : Session) : List Violation :=
  (s.tree.fields.filter fun p => (s.controls.get? p.controlId).any fun c => !c.isValid).map fun p =>
    ⟨p.controlId, p.field.id, p.field.caption⟩

def prepareSave (s : Session) : Except FormError Fields :=
  match s.violations with
  | [] => .ok s.mergedDocument
  | missing => .error (.incomplete missing)

/-- Takes a document that was saved as the new starting point. -/
def commitSaved (document : Fields) (s : Session) : Session :=
  { s with stored := document, hasStored := true, controls := s.controls.commit }

/-- Saves the document with the host, in the name of the operator if one is known. -/
def save (store : DocumentKey → Fields → String → Except FormError Unit) (key : DocumentKey)
    (s : Session) : Except FormError (Fields × Session) := do
  let document ← s.prepareSave
  store key document (s.operator.getD "")
  .ok (document, s.commitSaved document)

end Session

end Formwork
