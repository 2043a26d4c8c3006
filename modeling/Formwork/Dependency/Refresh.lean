import Formwork.Choice.Catalog
import Formwork.Dependency.Basic

/-!
# Following dependencies

Brings dependent controls in line with the controls that they depend on. While the parent is empty,
the child is locked, empty and without choices; otherwise it has the choices that link to the value of
the parent, and loses a value that is none of them.
-/
namespace Formwork

/-- A dependent control with its offer, and whether anything about them was changed. -/
structure Dependent where
  control : Control
  offer : Option Offer
  changed : Bool

namespace Dependent

def lock (d : Dependent) : Dependent where
  control :=
    let held := { d.control with dependencyLocked := true, disabled := true }
    if d.control.value.isFilled then held.clear else held
  offer := d.offer.map fun o => { o with available := [] }
  changed := d.changed || !d.control.dependencyLocked || !d.control.disabled ||
    d.control.value.isFilled || d.offer.any fun o => !o.available.isEmpty

/-- The child of a filled parent, as far as its lock goes. -/
def unlock (d : Dependent) : Dependent :=
  if d.control.dependencyLocked then
    { d with
      control := { d.control with dependencyLocked := false }.refreshEnabled
      changed := true }
  else d

/-- The child with the choices that link to the value of its parent. -/
def narrow (link : String) (parent : Json) (d : Dependent) : Dependent :=
  match d.offer with
  | none => d
  | some o =>
    let choices := Choice.narrow o.all link parent
    let dropped := o.loaded && d.control.value.isFilled && !Choice.allow choices d.control.value
    { control := if dropped then d.control.clear else d.control
      offer := some { o with available := choices }
      changed := d.changed || !(choices == o.available) || dropped }

/-- The child brought in line with the value of its parent. -/
def follow (link : String) (parent : Json) (d : Dependent) : Dependent :=
  if parent.isFilled then d.unlock.narrow link parent else d.lock

end Dependent

structure Refresh where
  controls : ControlSet
  catalog : Catalog
  changed : Bool

namespace Refresh

def follow (config : Config) (r : Refresh) (e : Dependency) : Refresh :=
  match config.dependentRules[e.rule]?, r.controls.get? e.child with
  | some rule, some child =>
    let parent := (r.controls.value? e.parent).getD .null
    let next := Dependent.follow rule.linkProperty parent
      ⟨child, r.catalog.offer? e.child, r.changed⟩
    { controls := r.controls.modify e.child fun _ => next.control
      catalog := match next.offer with
        | some o => { r.catalog with offers := Table.modify e.child (fun _ => o) r.catalog.offers }
        | none => r.catalog
      changed := next.changed }
  | _, _ => r

def followAll (config : Config) (edges : List Dependency) (controls : ControlSet)
    (catalog : Catalog) : Refresh :=
  edges.foldl (follow config) ⟨controls, catalog, false⟩

end Refresh

end Formwork
