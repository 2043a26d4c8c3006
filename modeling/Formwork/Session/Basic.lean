import Formwork.ChangeSet
import Formwork.Control.Binding
import Formwork.Dependency.Refresh
import Formwork.Lookup
import Formwork.Tree.Build
import Formwork.Visibility

/-!
# Sessions

A session is a form being filled in: the template and the stored document, the form laid out for the
active step, and its controls, offers and groups. After every change the form is settled: dependent
controls follow the ones they depend on and controls go out of view or come into view, round by round
until a round changes nothing. There are at most two rounds more than there are controls.
-/
namespace Formwork

structure Session where
  config : Config
  template : Template
  /-- The document as it was loaded or saved, with what was entered in other steps. -/
  stored : Fields
  /-- Whether there is a document for the form. -/
  hasStored : Bool
  operator : Option String
  /-- The active step; without one every section is shown. -/
  step : Option String
  /-- The current time as text. -/
  now : String
  registry : Registry
  tree : FormTree
  controls : ControlSet
  catalog : Catalog
  /-- The dependencies among the controls in the order in which they are followed. -/
  dependencies : List Dependency
  selections : Selections
  /-- Whether each group is in view. -/
  groups : Table Bool

namespace Session

def appearance (s : Session) : Appearance := ⟨s.controls, s.groups⟩

/-- One round of settling, and whether it brought a dependent control in line or emptied a control that
went out of view. -/
def round (s : Session) : Session × Bool :=
  let refresh := Refresh.followAll s.config s.dependencies s.controls s.catalog
  let plan := s.tree.plan refresh.controls
  let shown := plan.apply refresh.controls
  ({ s with catalog := refresh.catalog, controls := shown.1, groups := plan.groupTable },
    refresh.changed || !shown.2.isEmpty)

/-- Goes on for as many rounds as the fuel allows, until one changes nothing. -/
def settleWithin : Nat → Session → Session
  | 0, s => s
  | fuel + 1, s =>
    let next := s.round
    if next.2 then settleWithin fuel next.1 else next.1

def settle (s : Session) : Session := settleWithin (s.controls.length + 2) s

def reconcile (s : Session) : Session := { s with controls := s.catalog.reconcile s.controls }

def circumstances (s : Session) : Circumstances := ⟨s.config, s.operator, s.hasStored, s.now⟩

def layOut (s : Session) : Session :=
  let built := FormTree.build ⟨s.step, s.stored, s.config.repeatFallbackMax⟩ s.template s.registry
  { s with tree := built.1, registry := built.2 }

/-- Binds the controls, offers and dependencies of the form, giving controls the values that they had
before. -/
def bind (before : Fields) (s : Session) : Session :=
  { s with
    controls := .ofTree s.circumstances before s.tree
    dependencies := Dependency.ordered (Dependency.ofRules s.config.dependentRules s.tree)
    catalog := s.catalog.bind s.config s.tree
    groups := [] }

/-- Makes the form anew with the values given by identifier, and settles it. -/
def rebuild (before : Fields) (s : Session) : Session := ((s.layOut.bind before).reconcile).settle

def rebuildFromStored (s : Session) : Session := s.rebuild s.stored

def start (now : String) (config : Config) (template : Template) : Session :=
  rebuildFromStored
    { config, template, now
      stored := [], hasStored := false, operator := none, step := none
      registry := .empty, tree := .empty, controls := [], catalog := .empty
      dependencies := [], selections := [], groups := [] }

def atTime (now : String) (s : Session) : Session := { s with now }

/-- The session in the name of an operator. The form starts from the stored document again. -/
def withOperator (operator : String) (s : Session) : Session :=
  rebuildFromStored { s with operator := some operator }

def withIdentity (identity : Option String) (s : Session) : Session :=
  match identity with
  | some operator => s.withOperator operator
  | none => s

end Session

end Formwork
