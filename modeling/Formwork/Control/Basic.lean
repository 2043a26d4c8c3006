import Formwork.Identifier
import Formwork.Value.Basic

/-!
# Controls

A control holds the value of one field and what is known about it. The controls of a form are kept in
the order in which they were bound. A reference from one field to another gives only the id in the
template; which control it means depends on the instances that enclose the referring field.
-/
namespace Formwork

structure Control where
  value : Json
  /-- The value from which the control counts as changed. -/
  initial : Json
  disabled : Bool
  touched : Bool
  dirty : Bool
  required : Bool
  visible : Bool
  /-- Whether the template lets the control be edited. -/
  templateEnabled : Bool
  /-- Whether the control is held back because the control it depends on is empty. -/
  dependencyLocked : Bool

namespace Control

def fresh (value : Json) (required templateEnabled : Bool) : Control where
  value := value
  initial := value
  disabled := !templateEnabled
  touched := false
  dirty := false
  required := required
  visible := true
  templateEnabled := templateEnabled
  dependencyLocked := false

def enabled (c : Control) : Bool := !c.disabled

/-- Whether the control ought to accept input. -/
def shouldEnable (c : Control) : Bool := c.visible && c.templateEnabled && !c.dependencyLocked

/-- A control that must be filled in fails while it is in view, enabled and empty. -/
def isValid (c : Control) : Bool := !(c.required && c.visible && !c.disabled && !c.value.isFilled)

def set (v : Json) (c : Control) : Control := { c with value := v, dirty := !(v == c.initial) }

/-- Empties the control, keeping the shape of its value. -/
def clear (c : Control) : Control := c.set c.value.emptied

def touch (c : Control) : Control := { c with touched := true }

/-- Takes the value as the one from which the control counts as changed. -/
def commit (c : Control) : Control := { c with initial := c.value, dirty := false }

def refreshEnabled (c : Control) : Control := { c with disabled := !c.shouldEnable }

def toJson (c : Control) : Json :=
  Json.object [("value", c.value), ("initial", c.initial), ("disabled", .bool c.disabled),
    ("touched", .bool c.touched), ("dirty", .bool c.dirty), ("required", .bool c.required),
    ("visible", .bool c.visible), ("templateEnabled", .bool c.templateEnabled),
    ("dependencyLocked", .bool c.dependencyLocked)]

end Control

/-- A control with the names by which it is found. -/
structure BoundControl where
  id : String
  /-- The field id in the form in which identifiers carry it. -/
  rawKey : String
  state : Control

/-- The controls of a form in the order in which they were bound. -/
abbrev ControlSet := List BoundControl

namespace ControlSet

def ids (s : ControlSet) : List String := s.map (·.id)

def get? (id : String) (s : ControlSet) : Option Control :=
  (s.find? fun b => b.id = id).map BoundControl.state

def has (id : String) (s : ControlSet) : Bool := s.any fun b => b.id = id

def value? (id : String) (s : ControlSet) : Option Json := (s.get? id).map Control.value

def modify (id : String) (f : Control → Control) (s : ControlSet) : ControlSet :=
  s.map fun b => if b.id = id then { b with state := f b.state } else b

/-- Binds a control last, unless its identifier is bound already. -/
def bind? (id raw : String) (state : Control) (s : ControlSet) : Option ControlSet :=
  if s.has id then none else some (s ++ [⟨id, Identifier.ofRaw raw, state⟩])

/-- Gives the control under an identifier a value, if there is one. -/
def set? (id : String) (v : Json) (s : ControlSet) : Option ControlSet :=
  if s.has id then some (s.modify id (Control.set v)) else none

/-- Marks the control under an identifier as visited, if there is one. -/
def touch? (id : String) (s : ControlSet) : Option ControlSet :=
  if s.has id then some (s.modify id Control.touch) else none

def commit (s : ControlSet) : ControlSet := s.map fun b => { b with state := b.state.commit }

/-- The control that a field id means inside a scope: that of the innermost enclosing instance that
has one under this id, or else the first bound for the id. -/
def resolve? (raw : String) (scope : Scope) (s : ControlSet) : Option String :=
  match scope.reverse.find? fun f => s.has (f.identifier raw) with
  | some f => some (f.identifier raw)
  | none => (s.find? fun b => b.rawKey = Identifier.ofRaw raw).map BoundControl.id

def snapshot (s : ControlSet) : Fields := Table.ofPairs (s.map fun b => (b.id, b.state.value))

end ControlSet

end Formwork
