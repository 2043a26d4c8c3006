import Formwork.Control.Basic
import Formwork.Template.Basic
import Formwork.Value.Comparison

/-!
# Conditions

Whether the conditions of a field or group hold for the current values. A condition that refers to no
control holds, so that a reference to a field which is not laid out hides nothing.
-/
namespace Formwork

/-- Whether a value meets an expected one. A list meets it if one of its items does, and an expected
list is met if one of its items is. -/
def Json.meets (actual expected : Json) : Bool :=
  match actual.unwrap, expected with
  | .arr items, .arr wanted => items.any fun v => wanted.any fun w => v.conditionEquals w
  | .arr items, w => items.any fun v => v.conditionEquals w
  | v, .arr wanted => wanted.any fun w => v.conditionEquals w
  | v, w => v.conditionEquals w

namespace Condition

def accepts (c : Condition) (actual : Json) : Bool :=
  match c.kind with
  | .always => true
  | .hasValue => actual.isFilled
  | .equals => actual.meets c.value
  | .notEquals => !actual.meets c.value

/-- The value to which the condition refers, if it refers to a control that is there. -/
def subject? (controls : ControlSet) (scope : Scope) (c : Condition) : Option Json :=
  (c.fieldId.filter fun id => !Text.isBlankText id).bind fun id =>
    (controls.resolve? id scope).bind controls.value?

def holds (controls : ControlSet) (scope : Scope) (c : Condition) : Bool :=
  match c.subject? controls scope with
  | some actual => c.accepts actual
  | none => true

/-- Joins the result of a condition to that of the ones before it. -/
def join (controls : ControlSet) (scope : Scope) (before : Bool) (c : Condition) : Bool :=
  match c.combinator with
  | .and => before && c.holds controls scope
  | .or => before || c.holds controls scope

/-- Whether the conditions hold together in a scope. They are joined from left to right, so that
neither way of joining binds more tightly; the combinator of the first one does not count. -/
def allHold (controls : ControlSet) (scope : Scope) : List Condition → Bool
  | [] => true
  | first :: rest => rest.foldl (join controls scope) (first.holds controls scope)

end Condition

end Formwork
