import Formwork.Json.Basic
import Formwork.Text.Numeral

/-!
# Errors

What can be wrong with what a form is asked to do.
-/
namespace Formwork

structure Violation where
  controlId : String
  /-- The id of the field in the template. -/
  rawId : String
  label : String
deriving DecidableEq, Repr

def Violation.message (v : Violation) : String :=
  "'" ++ v.label ++ "' (" ++ v.controlId ++ ") is required"

def Violation.toJson (v : Violation) : Json :=
  Json.object [("controlId", .str v.controlId), ("rawId", .str v.rawId), ("label", .str v.label)]

inductive FormError where
  /-- There is no such control. -/
  | unknownControl (id : String)
  /-- The field of the control has no lookup. -/
  | notALookup (id : String)
  /-- Controls that have to be filled in are not. -/
  | incomplete (violations : List Violation)
  /-- A service of the host failed. -/
  | service (name message : String)
deriving DecidableEq, Repr

namespace FormError

def code : FormError → String
  | .unknownControl _ => "C001"
  | .notALookup _ => "L001"
  | .incomplete _ => "S001"
  | .service _ _ => "X001"

def reason : FormError → String
  | .unknownControl id => "unknown control '" ++ id ++ "'"
  | .notALookup id => "control '" ++ id ++ "' is not a lookup field"
  | .incomplete violations => Text.ofNat violations.length ++ " required field(s) are empty"
  | .service name message => "collaborator '" ++ name ++ "' failed: " ++ message

def message (e : FormError) : String := "[" ++ e.code ++ "] " ++ e.reason

end FormError

end Formwork
