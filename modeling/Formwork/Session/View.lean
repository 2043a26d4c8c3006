import Formwork.Session.Basic
import Formwork.Tree.Printer

/-!
# What a view shows

The state of a form as a view needs it: the tree, the state of each control, the choices on offer, the
groups in view and the repeated groups with what can be done to them.
-/
namespace Formwork

structure RepeatStatus where
  key : String
  label : Option String
  count : Nat
  min : Nat
  max : Nat
  canAdd : Bool
  canRemove : Bool
deriving DecidableEq, Repr

def RepeatStatus.toJson (r : RepeatStatus) : Json :=
  Json.object [("key", .str r.key), ("label", Json.ofOption .str r.label),
    ("count", Json.ofNat r.count), ("min", Json.ofNat r.min), ("max", Json.ofNat r.max),
    ("canAdd", .bool r.canAdd), ("canRemove", .bool r.canRemove)]

namespace Session

def repeatStatus (s : Session) (e : RepeatEntry) : RepeatStatus :=
  let count := (s.registry.count? e.key).getD 0
  ⟨e.key, e.label, count, e.bounds.min, e.bounds.max, s.registry.canAdd e.key,
    e.bounds.min < count⟩

/-- The repeated groups of the form in ascending order of their keys. -/
def repeatGroups (s : Session) : List RepeatStatus :=
  s.registry.entries.map fun e => s.repeatStatus e.2

/-- The choices on offer for a control, if it takes choices. -/
def choices? (id : String) (s : Session) : Option (List Choice) :=
  (s.catalog.offer? id).map Offer.available

/-- Whether a group is in view; a group that is not there is not. -/
def isGroupVisible (key : String) (s : Session) : Bool := (Table.get? key s.groups).getD false

def view (s : Session) : Json :=
  Json.object
    [("step", Json.ofOption .str s.step), ("tree", s.tree.toJson),
      ("controls", Json.object (s.controls.map fun b => (b.id, b.state.toJson))),
      ("options", Json.object (s.controls.ids.filterMap fun id =>
        (s.choices? id).map fun l => (id, .arr (l.map Choice.toJson)))),
      ("groups", .obj (s.groups.mapValues .bool)),
      ("repeats", .arr (s.repeatGroups.map RepeatStatus.toJson))]

end Session

end Formwork
