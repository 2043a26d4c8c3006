import Formwork.Proofs.Session.Offers
import Mathlib.Data.List.Basic

/-!
# Controls that a form consults

The conditions of a form and its dependencies look at some controls, and at others nothing does. A form with
the values of a settled one and no further choices keeps them when it is settled, even if controls differ at
which nothing looks.
-/
namespace Formwork

namespace Condition

def referent? (controls : ControlSet) (scope : Scope) (c : Condition) : Option String :=
  (c.fieldId.filter fun id => !Text.isBlankText id).bind fun id => controls.resolve? id scope

theorem subject?_eq (controls : ControlSet) (scope : Scope) (c : Condition) :
    c.subject? controls scope = (c.referent? controls scope).bind controls.value? := by
  rw [subject?, referent?, Option.bind_assoc]

variable {s t : ControlSet} (names : t.map BoundControl.names = s.map BoundControl.names) {scope : Scope}

include names

/-- Whether a condition holds depends on the value of the control to which it refers. -/
theorem holds_of_values {c : Condition}
    (same : ∀ id, c.referent? s scope = some id → t.value? id = s.value? id) :
    c.holds t scope = c.holds s scope := by
  have referent : c.referent? t scope = c.referent? s scope := by
    simp only [referent?, ControlSet.resolve?_of_names names]
  have subject : c.subject? t scope = c.subject? s scope := by
    rw [subject?_eq, subject?_eq, referent]
    cases found : c.referent? s scope with
    | none => rfl
    | some id => exact same id found
  rw [holds, holds, subject]

theorem allHold_of_values {l : List Condition}
    (same : ∀ c ∈ l, ∀ id, c.referent? s scope = some id → t.value? id = s.value? id) :
    allHold t scope l = allHold s scope l := by
  cases l with
  | nil => rfl
  | cons first rest =>
    have holds (c : Condition) (hc : c ∈ first :: rest) : c.holds t scope = c.holds s scope :=
      holds_of_values names (same c hc)
    rw [allHold, allHold, holds first List.mem_cons_self]
    refine List.foldl_ext _ _ _ fun before c hc => ?_
    simp only [join, holds c (List.mem_cons_of_mem _ hc)]

end Condition

/-- A condition of the field, or of a group around it, refers to the control. -/
def Placement.Consults (controls : ControlSet) (p : Placement) (id : String) : Prop :=
  (∃ c ∈ p.field.conditions, c.referent? controls p.field.scope = some id) ∨
    ∃ g ∈ p.around, ∃ c ∈ g.conditions, c.referent? controls g.scope = some id

/-- Whether a field is to be in view depends on the controls that are consulted for it. -/
theorem Placement.isShown_of_values {s t : ControlSet}
    (names : t.map BoundControl.names = s.map BoundControl.names) {p : Placement}
    (same : ∀ id, p.Consults s id → t.value? id = s.value? id) : p.isShown t = p.isShown s := by
  have own : Condition.allHold t p.field.scope p.field.conditions =
      Condition.allHold s p.field.scope p.field.conditions :=
    Condition.allHold_of_values names fun c hc id found => same id (.inl ⟨c, hc, found⟩)
  have around : p.around.all (Group.allows t) = p.around.all (Group.allows s) := by
    rw [Bool.eq_iff_iff, List.all_eq_true, List.all_eq_true]
    refine forall₂_congr fun g hg => ?_
    rw [Group.allows, Group.allows, Condition.allHold_of_values names
      fun c hc id found => same id (.inr ⟨g, hg, c, hc, found⟩)]
  rw [isShown, isShown, own, around]

/-- Controls with the same names and, but for those that are set apart, the same values. -/
structure ControlSet.Echoes (s : ControlSet) (apart : String → Prop) (t : ControlSet) : Prop where
  names : t.map BoundControl.names = s.map BoundControl.names
  values : ∀ id, ¬apart id → t.value? id = s.value? id

/-- With a part of the choices no more values are lost. -/
theorem Dependent.not_losesValue_within {c d : Catalog} (within : d.Within c) {id link : String}
    {parent v : Json} (kept : losesValue link parent (c.offer? id) v = false) :
    losesValue link parent (d.offer? id) v = false := by
  cases found : d.offer? id with
  | none =>
    rw [losesValue] at kept ⊢
    cases filled : v.isFilled <;> cases held : parent.isFilled <;> simp [filled, held] at kept ⊢
  | some o =>
    cases loaded : o.loaded with
    | false =>
      rw [losesValue] at kept ⊢
      cases filled : v.isFilled <;> cases held : parent.isFilled <;>
        simp [filled, held, loaded] at kept ⊢
    | true =>
      obtain ⟨o', found', stock⟩ := within id o found loaded
      have same : (some o).map Offer.stock = (some o').map Offer.stock := congrArg some stock.symm
      rwa [losesValue_congr same, ← found']

namespace Session

def Consults (s : Session) (id : String) : Prop :=
  (∃ e ∈ s.dependencies, e.parent = id) ∨ ∃ p ∈ s.tree.placements, p.Consults s.controls id

/-- The same form with no more choices, whose values are the same but for controls that are set apart. -/
structure Echoes (s : Session) (apart : String → Prop) (t : Session) : Prop where
  config : t.config = s.config
  tree : t.tree = s.tree
  dependencies : t.dependencies = s.dependencies
  controls : s.controls.Echoes apart t.controls
  within : t.catalog.Within s.catalog

variable {s t : Session} {apart : String → Prop} (unseen : ∀ id, apart id → ¬s.Consults id)

include unseen

/-- The same fields are to be in view. -/
theorem echoes_plan {controls : ControlSet} (h : s.controls.Echoes apart controls) :
    (s.tree.plan controls).fields = s.wanted := by
  rw [wanted, FormTree.plan_fields, FormTree.plan_fields]
  refine List.map_congr_left fun p hp => ?_
  rw [Placement.entry, Placement.entry, Placement.isShown_of_values h.names fun id consulted =>
    h.values id fun set => unseen id set (.inr ⟨p, hp, consulted⟩)]

variable (hs : s.Standing)

include hs

/-- Following a dependency keeps the values. -/
theorem echoes_follow {r : Refresh} (controls : s.controls.Echoes apart r.controls)
    (within : r.catalog.Within s.catalog) {e : Dependency} (he : e ∈ s.dependencies) :
    s.controls.Echoes apart (Refresh.follow s.config r e).controls ∧
      (Refresh.follow s.config r e).catalog.Within s.catalog := by
  have distinct : r.controls.ids.Nodup := ControlSet.ids_of_names controls.names ▸ hs.bound.distinct
  have fades : r.controls.Fades (Refresh.follow s.config r e).controls :=
    Refresh.follow_fades distinct e
  have names := fades.wanes.names.trans controls.names
  obtain ⟨offers, catalog, -, shut, -⟩ := Refresh.catalog_follow s.config r e
  refine ⟨⟨names, fun id held => ?_⟩, within.of_shut fun id => by rw [catalog]; exact shut id⟩
  by_cases hid : id = e.child
  · subst hid
    have parent : r.controls.value? e.parent = s.controls.value? e.parent :=
      controls.values e.parent fun set => unseen e.parent set (.inl ⟨e, he, rfl⟩)
    have kept : Refresh.loses s.config r e = false := by
      have kept := hs.quiet.respects e he
      simp only [Refresh.loses, Dependency.losesValue, Dependency.parentValue, parent,
        controls.values e.child held] at kept ⊢
      split at kept
      · exact Dependent.not_losesValue_within within kept
      · rfl
    have readings := (Refresh.follow_of_not_loses distinct kept).1.1
    exact (ControlSet.value?_congr readings e.child).trans (controls.values e.child held)
  · rw [ControlSet.value?, Refresh.get?_follow_of_ne hid]
    exact controls.values id held

theorem echoes_foldl_follow {edges : List Dependency} (sub : ∀ e ∈ edges, e ∈ s.dependencies)
    {r : Refresh} (controls : s.controls.Echoes apart r.controls)
    (within : r.catalog.Within s.catalog) :
    s.controls.Echoes apart (edges.foldl (Refresh.follow s.config) r).controls ∧
      (edges.foldl (Refresh.follow s.config) r).catalog.Within s.catalog := by
  induction edges generalizing r with
  | nil => exact ⟨controls, within⟩
  | cons e edges ih =>
    obtain ⟨first, sub⟩ := List.forall_mem_cons.1 sub
    obtain ⟨controls', within'⟩ := echoes_follow unseen hs controls within first
    exact ih sub controls' within'

omit unseen in
/-- A control with the value of one in the settled form loses no value. -/
theorem keeps_of_value? {b : BoundControl}
    (same : s.controls.value? b.id = some b.state.value) : b.losesValueBy s.wanted = false := by
  obtain ⟨d, hd, id, value⟩ := ControlSet.exists_of_value? same
  have kept := hs.quiet.keeps d hd
  rw [BoundControl.losesValueBy, id] at kept
  have alike : d.state.losesValue = b.state.losesValue := by
    funext visible
    rw [Control.losesValue, Control.losesValue, value]
  rwa [BoundControl.losesValueBy, ← alike]

omit unseen in
/-- Carrying out the plan keeps the values. -/
theorem echoes_presentBy {controls : ControlSet} (h : s.controls.Echoes apart controls) :
    s.controls.Echoes apart (controls.map (BoundControl.presentBy s.wanted)) := by
  have fades : controls.Fades (controls.map (BoundControl.presentBy s.wanted)) :=
    ControlSet.fades_map fun b _ => b.presentBy_fades s.wanted
  refine ⟨fades.wanes.names.trans h.names, fun id held => ?_⟩
  rw [← h.values id held]
  cases found : controls.get? id with
  | none =>
    rw [ControlSet.value?_eq_none_iff.2 found, ControlSet.value?_eq_none_iff]
    rwa [ControlSet.get?_eq_none_iff, fades.wanes.ids, ← ControlSet.get?_eq_none_iff]
  | some c =>
    have presented : List.Forall₂ (fun b d => d = b.presentBy s.wanted) controls
        (controls.map (BoundControl.presentBy s.wanted)) :=
      List.forall₂_map_right_iff.2 (List.forall₂_same.2 fun _ _ => rfl)
    obtain ⟨b, -, _, -, rfl, rfl, rfl, found'⟩ := ControlSet.exists_of_forall₂ presented
      (fun b d same => by rw [same, (b.presentBy_fades s.wanted).1]) found
    have value := ControlSet.value?_of_get? found
    have kept := keeps_of_value? hs ((h.values b.id held).symm.trans value)
    rw [value, ControlSet.value?_of_get? found']
    exact congrArg (fun r => some r.2.2) (BoundControl.reading_presentBy.2 kept)

theorem Echoes.round (h : s.Echoes apart t) : s.Echoes apart t.round.1 := by
  obtain ⟨controls, within⟩ := echoes_foldl_follow unseen hs (fun e he => he) h.controls h.within
    (r := ⟨t.controls, t.catalog, false⟩)
  have refresh : t.refresh = s.dependencies.foldl (Refresh.follow s.config)
      ⟨t.controls, t.catalog, false⟩ := by
    rw [refresh, Refresh.followAll, h.dependencies, h.config]
  rw [← refresh] at controls within
  have plan : (t.tree.plan t.refresh.controls).fields = s.wanted := by
    rw [h.tree, echoes_plan unseen controls]
  have once : ((t.tree.plan t.refresh.controls).fields.map (·.1)).Nodup := by
    rw [plan]
    exact hs.bound.once s.controls
  rw [round_eq, VisibilityPlan.apply_controls once, plan]
  exact ⟨h.config, h.tree, h.dependencies, echoes_presentBy hs controls, within⟩

/-- Settling the form keeps the values. -/
theorem Echoes.settle (h : s.Echoes apart t) : s.Echoes apart t.settle :=
  settle_induction (fun _ h => h.round unseen hs) h

end Session

end Formwork
