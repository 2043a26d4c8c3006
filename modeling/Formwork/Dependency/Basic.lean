import Formwork.Config
import Formwork.Tree.Basic

/-!
# Dependencies between controls

A rule lets the choices of one source depend on the value of a control bound to another. The first
control of the parent source drives every control of the child source, which gives the edges of a
graph. They are put in an order in which parents come before their children, if there is one: nodes by
depth first search, and at each node the latest edge first.
-/
namespace Formwork

structure Dependency where
  parent : String
  child : String
  /-- The position of the rule in the configuration. -/
  rule : Nat
deriving DecidableEq, Repr

namespace Dependency

/-- The dependencies that a rule makes among fields. -/
def ofRule (fields : List PlacedField) (rule : DependencyRule) (index : Nat) : List Dependency :=
  match fields.find? fun f => f.field.dataSource = some rule.parentSource with
  | none => []
  | some parent =>
    (fields.filter fun f =>
      f.field.dataSource = some rule.childSource ∧ f.controlId ≠ parent.controlId).map
      fun child => ⟨parent.controlId, child.controlId, index⟩

/-- The dependencies among the fields of a tree, rule by rule. -/
def ofRules (rules : List DependencyRule) (t : FormTree) : List Dependency :=
  rules.zipIdx.flatMap fun e => ofRule t.fields e.1 e.2

/-- The controls that occur, each once and in the order in which they first occur. -/
def nodes (edges : List Dependency) : List String :=
  (edges.flatMap fun e => [e.parent, e.child]).foldl
    (fun seen n => if n ∈ seen then seen else seen ++ [n]) []

/-- The controls that depend on one directly, by the earliest edge first. -/
def children (edges : List Dependency) (node : String) : List String :=
  (edges.filter (·.parent = node)).map child

structure Search where
  seen : List String
  /-- The nodes left behind for good, the latest first. -/
  finished : List String

/-- Searches on from a node: first everything below it, then it is finished. The fuel bounds the depth
of the search; as many units as there are nodes are enough. -/
def visit (edges : List Dependency) : Nat → Search → String → Search
  | 0, s, _ => s
  | fuel + 1, s, node =>
    if node ∈ s.seen then s
    else
      let below := (children edges node).foldl (visit edges fuel)
        { s with seen := node :: s.seen }
      { below with finished := node :: below.finished }

/-- The nodes, the latest finished first. -/
def searchOrder (edges : List Dependency) : List String :=
  ((nodes edges).foldl (visit edges (nodes edges).length) ⟨[], []⟩).finished

/-- Whether the parent of every edge stands before the child. -/
def Forward (order : List String) (edges : List Dependency) : Prop :=
  ∀ e ∈ edges, order.idxOf e.parent < order.idxOf e.child

instance (order : List String) (edges : List Dependency) : Decidable (Forward order edges) :=
  inferInstanceAs (Decidable (∀ e ∈ edges, order.idxOf e.parent < order.idxOf e.child))

/-- The nodes with parents before children. If the dependencies form a cycle there is no such order,
and the nodes stay in the order in which they first occur. -/
def nodeOrder (edges : List Dependency) : List String :=
  if Forward (searchOrder edges) edges then searchOrder edges else nodes edges

def ordered (edges : List Dependency) : List Dependency :=
  (nodeOrder edges).flatMap fun n => (edges.filter (·.parent = n)).reverse

end Dependency

end Formwork
