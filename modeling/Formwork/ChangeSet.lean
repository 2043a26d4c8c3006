import Formwork.Control.Basic

/-!
# Changes

What an operation changed in the eyes of a view: values changed without being asked for, and
visibility and enabling of controls and groups.
-/
namespace Formwork

structure ControlChange where
  controlId : String
  visible : Bool
  enabled : Bool
  /-- Whether its value changed without being asked for. -/
  valueChanged : Bool
deriving DecidableEq, Repr

structure GroupChange where
  key : String
  visible : Bool
deriving DecidableEq, Repr

structure ChangeSet where
  controls : List ControlChange
  groups : List GroupChange
deriving DecidableEq, Repr

/-- What a view sees of a form: its controls, and whether each group is in view. -/
structure Appearance where
  controls : ControlSet
  groups : Table Bool

namespace ChangeSet

def empty : ChangeSet := ⟨[], []⟩

def isEmpty (c : ChangeSet) : Bool := c.controls.isEmpty && c.groups.isEmpty

def control? (id : String) (c : ChangeSet) : Option ControlChange :=
  c.controls.find? (·.controlId = id)

def group? (key : String) (c : ChangeSet) : Option GroupChange := c.groups.find? (·.key = key)

/-- The change of a control, given what it was before. Of the control that was asked to change only
visibility and enabling are reported. A control that was not there before is always reported. -/
def ofControl? (requested : Option String) (before : ControlSet) (b : BoundControl) :
    Option ControlChange :=
  let changed := match before.get? b.id with
    | some c =>
      (requested ≠ some b.id && !(c.value == b.state.value),
        c.visible ≠ b.state.visible || c.disabled ≠ b.state.disabled)
    | none => (false, true)
  if changed.1 || changed.2 then some ⟨b.id, b.state.visible, b.state.enabled, changed.1⟩ else none

def between (requested : Option String) (before after : Appearance) : ChangeSet where
  controls := after.controls.filterMap (ofControl? requested before.controls)
  groups := after.groups.filterMap fun e =>
    if Table.get? e.1 before.groups = some e.2 then none else some ⟨e.1, e.2⟩

end ChangeSet

end Formwork
