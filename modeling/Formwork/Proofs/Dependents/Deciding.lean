import Formwork.Proofs.Dependents.Edges
import Formwork.Proofs.Session.Binding
import Formwork.Proofs.Session.Offers

/-!
# The dependency that decides

Every dependency of a control writes its lock and the choices on offer to it, so that in a settled form
both are as the one that is followed last asks for. The others have had no say in them. A value, on the
other hand, is lost to any of them.
-/
namespace Formwork

namespace Dependency

structure Stands (config : Config) (controls : ControlSet) (rule : DependencyRule) (e : Dependency) :
    Prop where
  rule : config.dependentRules[e.rule]? = some rule
  child : ∃ v, controls.value? e.child = some v

variable {config : Config} {controls : ControlSet} {rule : DependencyRule} {e : Dependency}
  {edges : List Dependency} {id : String}

/-- A mark of another control leaves lock and choices alone. -/
theorem mark_of_ne (other : id ≠ e.child) (x : ControlSet × Table Offer) :
    (mark config controls x e).1.get? id = x.1.get? id ∧
      Table.get? id (mark config controls x e).2 = Table.get? id x.2 := by
  unfold mark
  split
  · exact ⟨ControlSet.get?_modify_of_ne other _ _, Table.get?_adjust_of_ne other _ _⟩
  · exact ⟨rfl, rfl⟩

theorem foldl_mark_of_ne (others : ∀ e ∈ edges, id ≠ e.child) (x : ControlSet × Table Offer) :
    (edges.foldl (mark config controls) x).1.get? id = x.1.get? id ∧
      Table.get? id (edges.foldl (mark config controls) x).2 = Table.get? id x.2 := by
  induction edges generalizing x with
  | nil => exact ⟨rfl, rfl⟩
  | cons e edges ih =>
    obtain ⟨other, others⟩ := List.forall_mem_cons.1 others
    obtain ⟨rest, rest'⟩ := ih others (mark config controls x e)
    obtain ⟨first, first'⟩ := mark_of_ne other x
    exact ⟨rest.trans first, rest'.trans first'⟩

theorem mark_self (stands : Stands config controls rule e) (x : ControlSet × Table Offer) :
    (mark config controls x e).1.get? e.child =
        (x.1.get? e.child).map (.hold !(e.parentValue controls).isFilled) ∧
      Table.get? e.child (mark config controls x e).2 = (Table.get? e.child x.2).map
        (.narrowTo rule.linkProperty (e.parentValue controls)) := by
  obtain ⟨v, there⟩ := stands.child
  simp only [mark, stands.rule, there]
  exact ⟨ControlSet.get?_modify_self _ _ _, Table.get?_adjust_self _ _ _⟩

/-- The last mark of a control decides its lock and its choices. -/
theorem foldl_mark_of_last {before after : List Dependency} (last : ∀ d ∈ after, e.child ≠ d.child)
    (stands : Stands config controls rule e) (x : ControlSet × Table Offer) :
    (∃ state, ((before ++ e :: after).foldl (mark config controls) x).1.get? e.child =
        Option.map (.hold !(e.parentValue controls).isFilled) state) ∧
      ∃ offer, Table.get? e.child ((before ++ e :: after).foldl (mark config controls) x).2 =
        Option.map (.narrowTo rule.linkProperty (e.parentValue controls)) offer := by
  rw [List.foldl_append, List.foldl_cons]
  obtain ⟨held, narrowed⟩ := mark_self stands (before.foldl (mark config controls) x)
  obtain ⟨kept, kept'⟩ := foldl_mark_of_ne last
    (mark config controls (before.foldl (mark config controls) x) e)
  exact ⟨⟨_, kept.trans held⟩, ⟨_, kept'.trans narrowed⟩⟩

end Dependency

/-- Carrying out a plan changes no lock. -/
theorem BoundControl.lock_presentBy (fields : List (String × Bool)) (b : BoundControl) :
    (b.presentBy fields).lock = b.lock := by
  cases entry : Table.get? b.id fields with
  | none => rw [presentBy_of_none entry]
  | some visible =>
    rw [presentBy_of_some entry]
    simp only [lock, Control.present]
    split <;> rfl

namespace Session

variable {s : Session} {e : Dependency} {rule : DependencyRule}

/-- In a settled form, lock and choices of a control are as the dependency asks for that is followed
last. -/
theorem Standing.decided (h : s.Standing) {before after : List Dependency}
    (split : s.dependencies = before ++ e :: after) (last : ∀ d ∈ after, e.child ≠ d.child)
    (stands : e.Stands s.config s.controls rule) :
    (∀ c, s.controls.get? e.child = some c →
        c.dependencyLocked = !(e.parentValue s.controls).isFilled) ∧
      ∀ o, s.catalog.offer? e.child = some o →
        o.available = Choice.narrow o.all rule.linkProperty (e.parentValue s.controls) := by
  have settled := h.quiet.round h.bound
  rw [h.fixed] at settled
  obtain ⟨⟨state, held⟩, ⟨offer, narrowed⟩⟩ := Dependency.foldl_mark_of_last last stands
    (s.controls.unshown, s.catalog.offers)
  rw [← split, ← marked] at held narrowed
  constructor
  · intro c found
    have locks : s.controls.map BoundControl.lock = s.marked.1.map BoundControl.lock := by
      have controls := congrArg Session.controls settled
      dsimp only at controls
      rw [congrArg (List.map BoundControl.lock) controls, List.map_map]
      exact List.map_congr_left fun b _ => b.lock_presentBy s.wanted
    have lock := ControlSet.lock?_congr locks e.child
    rw [found, held, Option.map_map] at lock
    obtain ⟨m, -, same⟩ := Option.map_eq_some_iff.1 lock.symm
    exact same.symm
  · intro o found
    have offers : s.catalog.offers = s.marked.2 := congrArg (fun s => s.catalog.offers) settled
    rw [Catalog.offer?, offers, narrowed] at found
    obtain ⟨m, -, rfl⟩ := Option.map_eq_some_iff.1 found
    rfl

end Session

end Formwork
