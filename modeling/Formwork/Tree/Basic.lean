import Formwork.Identifier
import Formwork.Template.Basic

/-!
# Trees of a form

A tree is a template laid out for filling in: repeated sections are expanded into their instances, and
every group and field has a key or identifier of its own. How a tree comes about is in the modules
beside this one; here are its parts and the order in which they are visited.
-/
namespace Formwork

inductive GroupKind where
  /-- A section at the top. -/
  | topSection
  /-- A section below another one. -/
  | subsection
deriving DecidableEq, Repr

def GroupKind.name : GroupKind → String
  | .topSection => "section"
  | .subsection => "subsection"

/-- A field in its place in the tree. -/
structure PlacedField where
  controlId : String
  /-- The instances that enclose the field. -/
  scope : Scope
  /-- The conditions in force. -/
  conditions : List Condition
  field : Field

mutual

structure Group where
  key : String
  title : String
  kind : GroupKind
  templateEnabled : Bool
  /-- The conditions in force. -/
  conditions : List Condition
  /-- The instances that enclose the group. -/
  scope : Scope
  /-- The key under which the repetition is registered, if the group repeats. -/
  repeatKey : Option String
  instances : List GroupInstance

/-- One instance of a group; a group that does not repeat has just one. -/
structure GroupInstance where
  /-- The number of the instance, if the group repeats. -/
  index : Option Nat
  label : Option String
  fields : List PlacedField
  children : List Group

end

mutual

/-- The fields of a group in document order: instance by instance, its own before those of the groups
below. -/
def Group.fields : Group → List PlacedField
  | ⟨_, _, _, _, _, _, _, instances⟩ => GroupInstance.listFields instances

/-- The fields of the instances in document order. -/
def GroupInstance.listFields : List GroupInstance → List PlacedField
  | [] => []
  | ⟨_, _, own, children⟩ :: rest => own ++ Group.listFields children ++ GroupInstance.listFields rest

def Group.listFields : List Group → List PlacedField
  | [] => []
  | g :: rest => Group.fields g ++ Group.listFields rest

end

mutual

/-- The group and the groups below it in document order. -/
def Group.withGroupsBelow : Group → List Group
  | ⟨key, title, kind, enabled, conditions, scope, repeatKey, instances⟩ =>
    ⟨key, title, kind, enabled, conditions, scope, repeatKey, instances⟩ ::
      GroupInstance.listGroups instances

def GroupInstance.listGroups : List GroupInstance → List Group
  | [] => []
  | ⟨_, _, _, children⟩ :: rest => Group.listGroups children ++ GroupInstance.listGroups rest

def Group.listGroups : List Group → List Group
  | [] => []
  | g :: rest => Group.withGroupsBelow g ++ Group.listGroups rest

end

structure FormTree where
  groups : List Group

namespace FormTree

def empty : FormTree := ⟨[]⟩

def fields (t : FormTree) : List PlacedField := Group.listFields t.groups

def allGroups (t : FormTree) : List Group := Group.listGroups t.groups

def field? (controlId : String) (t : FormTree) : Option PlacedField :=
  t.fields.find? (·.controlId = controlId)

end FormTree

end Formwork
