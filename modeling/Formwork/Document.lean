import Formwork.Json.Written

/-!
# Documents

The stored document of a case spans all its steps, so the values of one step are written over it and
everything else is carried forward. What is no object is no document.
-/
namespace Formwork.Document

/-- Reads a stored document. Without one, or from a text that holds no object, it is empty. -/
def parse (raw : Option String) : Fields :=
  match raw with
  | none => []
  | some s =>
    match Json.ofText? s with
    | some (.obj members) => members
    | _ => []

/-- The stored document with the current values written over it. -/
def merge (stored current : Fields) : Fields := Table.override stored current

end Formwork.Document
