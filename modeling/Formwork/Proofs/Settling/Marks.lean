import Formwork.Proofs.Settling.Following
import Mathlib.Data.List.Induction

/-!
# Following dependencies where no value is lost

As long as no child loses its value, following dependencies leaves all readings as they are, and each
step marks its child with a lock and with choices that depend on the readings alone. A later mark of a
child overwrites an earlier one, and marks of different children do not touch each other, so that
setting all marks a second time changes nothing. This needs no order among the dependencies: they may
form cycles, and a child may have several parents that disagree.
-/
namespace Formwork

def ControlSet.unshown (s : ControlSet) : ControlSet :=
  s.map fun b => { b with state := b.state.unshown }

theorem ControlSet.unshown_modify_const (id : String) (c : Control) (s : ControlSet) :
    unshown (s.modify id fun _ => c) = s.unshown.modify id fun _ => c.unshown := by
  simp only [unshown, modify, List.map_map]
  refine List.map_congr_left fun b _ => ?_
  by_cases h : b.id = id <;> simp [h]

theorem ControlSet.ids_unshown (s : ControlSet) : s.unshown.ids = s.ids := by
  simp only [unshown, ids, List.map_map]
  rfl

theorem ControlSet.get?_unshown (id : String) (s : ControlSet) :
    s.unshown.get? id = (s.get? id).map Control.unshown := by
  simp only [get?, unshown, List.find?_map, Option.map_map]
  rfl

theorem ControlSet.readings_unshown (s : ControlSet) : s.unshown.readings = s.readings := by
  simp only [unshown, readings, List.map_map]
  rfl

namespace Dependency

def parentValue (controls : ControlSet) (e : Dependency) : Json :=
  (controls.value? e.parent).getD .null

/-- Whether the child is there and loses its value. -/
def losesValue (config : Config) (controls : ControlSet) (offers : Table Offer) (e : Dependency) :
    Bool :=
  match config.dependentRules[e.rule]?, controls.value? e.child with
  | some rule, some v =>
    Dependent.losesValue rule.linkProperty (e.parentValue controls) (Table.get? e.child offers) v
  | _, _ => false

/-- Marks the child, if it is there, with a lock and with choices. -/
def mark (config : Config) (controls : ControlSet) (x : ControlSet × Table Offer) (e : Dependency) :
    ControlSet × Table Offer :=
  match config.dependentRules[e.rule]?, controls.value? e.child with
  | some rule, some _ =>
    (x.1.modify e.child (.hold !(e.parentValue controls).isFilled),
      Table.adjust e.child (.narrowTo rule.linkProperty (e.parentValue controls)) x.2)
  | _, _ => x

variable {config : Config} {controls later : ControlSet}

theorem losesValue_congr (h : later.readings = controls.readings) {offers offers' : Table Offer}
    (stock : ∀ id, (Table.get? id offers').map Offer.stock = (Table.get? id offers).map Offer.stock)
    (e : Dependency) :
    losesValue config later offers' e = losesValue config controls offers e := by
  simp only [losesValue, parentValue, ControlSet.value?_congr h,
    Dependent.losesValue_congr (stock e.child)]

theorem mark_congr (h : later.readings = controls.readings) :
    mark config later = mark config controls := by
  funext x e
  simp only [mark, parentValue, ControlSet.value?_congr h]

/-- A mark overwrites an earlier one of the same child, and other marks may as well be set before it. -/
theorem mark_mark (d e : Dependency) :
    (∀ x, mark config controls (mark config controls x d) e = mark config controls x e) ∨
      ∀ x, mark config controls (mark config controls x d) e =
        mark config controls (mark config controls x e) d := by
  unfold mark
  cases config.dependentRules[e.rule]? with
  | none => exact .inr fun _ => rfl
  | some rule =>
    cases config.dependentRules[d.rule]? with
    | none => exact .inr fun _ => rfl
    | some earlier =>
      cases controls.value? e.child with
      | none => exact .inr fun _ => rfl
      | some _ =>
        cases controls.value? d.child with
        | none => exact .inr fun _ => rfl
        | some _ =>
          by_cases same : e.child = d.child
          · left
            intro x
            simp only [same, ControlSet.modify_modify,
              Table.adjust_adjust _ (Offer.narrowTo_narrowTo _ _ _ _)]
            rfl
          · right
            intro x
            simp only [ControlSet.modify_comm same, Table.adjust_comm same]

theorem mark_again (e : Dependency) (x : ControlSet × Table Offer) :
    mark config controls (mark config controls x e) e = mark config controls x e := by
  unfold mark
  cases config.dependentRules[e.rule]? with
  | none => rfl
  | some rule =>
    cases controls.value? e.child with
    | none => rfl
    | some _ =>
      simp only [ControlSet.modify_modify, Table.adjust_adjust _ (Offer.narrowTo_narrowTo _ _ _ _)]
      rfl

/-- Steps of which any two overwrite each other or commute may as well be taken once as twice: the last step of
the first pass is absorbed by that of the second. -/
theorem foldl_foldl_of_overwriting {α β : Type} {f : β → α → β}
    (again : ∀ e x, f (f x e) e = f x e)
    (h : ∀ d e, (∀ x, f (f x d) e = f x e) ∨ ∀ x, f (f x d) e = f (f x e) d) (l : List α) (x : β) :
    l.foldl f (l.foldl f x) = l.foldl f x := by
  have absorbed : ∀ (l : List α) (e : α) (x : β), f (l.foldl f (f x e)) e = f (l.foldl f x) e := by
    intro l e
    induction l with
    | nil => exact again e
    | cons d l ih =>
      intro x
      rcases h e d with overwrites | commutes
      · rw [List.foldl_cons, overwrites, List.foldl_cons]
      · rw [List.foldl_cons, commutes, ih, List.foldl_cons]
  induction l using List.reverseRec with
  | nil => rfl
  | append_singleton l e ih =>
    simp only [List.foldl_append, List.foldl_cons, List.foldl_nil]
    rw [absorbed, ih]

end Dependency

end Formwork
