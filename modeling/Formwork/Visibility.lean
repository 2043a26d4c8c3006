import Formwork.Condition
import Formwork.Tree.Basic

/-!
# Visibility

Which fields and groups are in view, and what follows for the controls. A field is in view if its own
conditions hold and so do those of all groups around it; a group is in view if its conditions hold, so
do those of the groups around it, and something below it is in view. A control that goes out of view
is disabled and emptied.
-/
namespace Formwork

/-- Whether fields and groups are to be in view: fields by identifier in document order, groups by
key. -/
structure VisibilityPlan where
  fields : List (String × Bool)
  groups : List (String × Bool)

namespace VisibilityPlan

def empty : VisibilityPlan := ⟨[], []⟩

def append (a b : VisibilityPlan) : VisibilityPlan := ⟨a.fields ++ b.fields, a.groups ++ b.groups⟩

end VisibilityPlan

/-- Whether each of the fields is in view, if `allowed` tells whether the groups around them allow it. -/
def PlacedField.listPlan (controls : ControlSet) (allowed : Bool) (fields : List PlacedField) :
    List (String × Bool) :=
  fields.map fun f => (f.controlId, allowed && Condition.allHold controls f.scope f.conditions)

mutual

/-- The plan for a group, and whether it is in view, if `allowed` tells whether the groups around it
allow it. -/
def Group.plan (controls : ControlSet) (allowed : Bool) : Group → VisibilityPlan × Bool
  | ⟨key, _, _, templateEnabled, conditions, scope, _, instances⟩ =>
    let allowed := allowed && templateEnabled && Condition.allHold controls scope conditions
    let below := GroupInstance.listPlan controls allowed instances
    let shown := allowed && below.2
    (⟨below.1.fields, below.1.groups ++ [(key, shown)]⟩, shown)

def GroupInstance.listPlan (controls : ControlSet) (allowed : Bool) :
    List GroupInstance → VisibilityPlan × Bool
  | [] => (.empty, false)
  | ⟨_, _, own, children⟩ :: rest =>
    let fields := PlacedField.listPlan controls allowed own
    let below := Group.listPlan controls allowed children
    let others := GroupInstance.listPlan controls allowed rest
    ((VisibilityPlan.append ⟨fields, []⟩ below.1).append others.1,
      fields.any (·.2) || below.2 || others.2)

/-- The plan for the groups, and whether one of them is in view. -/
def Group.listPlan (controls : ControlSet) (allowed : Bool) : List Group → VisibilityPlan × Bool
  | [] => (.empty, false)
  | g :: rest =>
    let first := Group.plan controls allowed g
    let others := Group.listPlan controls allowed rest
    (first.1.append others.1, first.2 || others.2)

end

def FormTree.plan (controls : ControlSet) (t : FormTree) : VisibilityPlan :=
  (Group.listPlan controls true t.groups).1

def VisibilityPlan.groupTable (p : VisibilityPlan) : Table Bool := Table.ofPairs p.groups

namespace Control

/-- Whether going out of view takes a value from the control. -/
def losesValue (visible : Bool) (c : Control) : Bool := !visible && c.value.isTruthy

/-- Brings the control into view or takes it out of view. In view, it is enabled unless the template
or the control it depends on forbids it; out of view, it is disabled and keeps no value that counts. -/
def present (visible : Bool) (c : Control) : Control :=
  let shown := refreshEnabled { c with visible := visible }
  if c.losesValue visible then shown.clear else shown

end Control

/-- Carries out a plan, and tells which controls lost a value. -/
def VisibilityPlan.apply (p : VisibilityPlan) (controls : ControlSet) : ControlSet × List String :=
  p.fields.foldl (fun (acc : ControlSet × List String) e =>
    match acc.1.get? e.1 with
    | none => acc
    | some c =>
      (acc.1.modify e.1 (Control.present e.2),
        if c.losesValue e.2 then acc.2 ++ [e.1] else acc.2)) (controls, [])

end Formwork
