import Formwork.Proofs.Answers.Taking
import Formwork.Proofs.Dependents

/-!
# What a settled form is determined by

Whether controls are locked, in view and enabled, which choices are on offer and which groups are in view:
all of this follows from the values and the choices that there are.
-/
namespace Formwork

/-- Controls that fade into each other differ in nothing but what is decided anew. -/
theorem BoundControl.Fades.antisymm {b c : BoundControl} (h : b.Fades c) (h' : c.Fades b) :
    c.id = b.id ∧ c.rawKey = b.rawKey ∧ c.state.bare = b.state.bare := by
  refine ⟨h.1, h.2.1, ?_⟩
  rcases h.2.2 with same | ⟨filled, emptied⟩
  · exact same
  · have value : c.state.value = b.state.value.emptied := Control.value_eq_of_bare emptied
    rcases h'.2.2 with same | ⟨filled', -⟩
    · exact same.symm
    · rw [value, Json.isFilled_emptied] at filled'
      cases filled'

/-- Apart from being shown, a control is determined by its lock and by all else about it. -/
theorem Control.unshown_eq_of_bare {c d : Control} (bare : c.bare = d.bare)
    (lock : c.dependencyLocked = d.dependencyLocked) : c.unshown = d.unshown := by
  have told : ∀ c : Control, c.unshown = c.bare.hold c.dependencyLocked := fun _ => rfl
  rw [told, told, bare, lock]

namespace ControlSet

variable {s t : ControlSet}

theorem readings_eq_of_fades (h : s.Fades t) (h' : t.Fades s) : t.readings = s.readings := by
  induction h with
  | nil => rfl
  | @cons b c s t first _ ih =>
    obtain ⟨first', rest'⟩ := List.forall₂_cons.1 h'
    obtain ⟨id, rawKey, bare⟩ := first.antisymm first'
    have reading : c.reading = b.reading := by
      rw [BoundControl.reading, BoundControl.reading, id, rawKey, Control.value_eq_of_bare bare]
    rw [readings, readings, List.map_cons, List.map_cons, reading]
    exact congrArg _ (ih rest')

/-- Controls that fade into each other and are locked alike differ only in whether they are shown. -/
theorem unshown_eq_of_fades (h : s.Fades t) (h' : t.Fades s)
    (locks : t.map BoundControl.lock = s.map BoundControl.lock) : t.unshown = s.unshown := by
  induction h with
  | nil => rfl
  | @cons b c s t first _ ih =>
    obtain ⟨first', rest'⟩ := List.forall₂_cons.1 h'
    obtain ⟨lock, locks⟩ := List.cons.inj locks
    obtain ⟨id, rawKey, bare⟩ := first.antisymm first'
    have state := Control.unshown_eq_of_bare bare (congrArg Prod.snd lock)
    have control : ({ c with state := c.state.unshown } : BoundControl) =
        { b with state := b.state.unshown } := by
      rw [BoundControl.mk.injEq]
      exact ⟨id, rawKey, state⟩
    rw [unshown, unshown, List.map_cons, List.map_cons, control]
    exact congrArg _ (ih rest' locks)

end ControlSet

namespace Session

variable {s t : Session}

/-- What settling never changes of a form. -/
def frame (s : Session) : Session := { s with catalog := .empty, controls := [], groups := [] }

theorem of_frame (h : t.frame = s.frame) :
    t.config = s.config ∧ t.tree = s.tree ∧ t.dependencies = s.dependencies := by
  have config := congrArg Session.config h
  have tree := congrArg Session.tree h
  have dependencies := congrArg Session.dependencies h
  exact ⟨config, tree, dependencies⟩

theorem frame_settle (s : Session) : s.settle.frame = s.frame := by
  rw [settle_eq]
  rfl

/-- Of the controls of a settled form, all but whether they are shown is as they are marked. -/
theorem Standing.controls_eq (h : s.Standing) :
    s.controls = s.controls.unshown.map (BoundControl.presentBy s.wanted) := by
  have unshown := h.quiet.unshown_round h.bound
  have settled := congrArg Session.controls (h.quiet.round h.bound)
  rw [h.fixed] at unshown settled
  rw [unshown]
  exact settled

theorem Standing.groups_eq (h : s.Standing) : s.groups = (s.tree.plan s.controls).groupTable := by
  have settled := congrArg Session.groups (h.quiet.round h.bound)
  rwa [h.fixed] at settled

structure Akin (s t : Session) : Prop where
  config : t.config = s.config
  tree : t.tree = s.tree
  dependencies : t.dependencies = s.dependencies
  readings : t.controls.readings = s.controls.readings

theorem Akin.parentValue (h : Akin s t) (e : Dependency) :
    e.parentValue t.controls = e.parentValue s.controls := by
  rw [Dependency.parentValue, Dependency.parentValue, ControlSet.value?_congr h.readings]

/-- For every control, its readings and dependencies decide whether it is locked and which of its choices
are on offer. -/
theorem Standing.exists_decision (hs : s.Standing) (stocked : s.Stocked) (id : String) :
    ∃ (locked : Bool) (offered : List Choice → List Choice),
      ∀ t : Session, t.Standing → t.Stocked → Akin s t →
        (∀ c, t.controls.get? id = some c → c.dependencyLocked = locked) ∧
          ∀ o, t.catalog.offer? id = some o → o.available = offered o.all := by
  by_cases dependent : ∃ e ∈ s.dependencies, e.child = id
  · obtain ⟨before, e, after, split, rfl, others⟩ := Dependency.exists_last dependent
    have there : e ∈ Dependency.ofRules s.config.dependentRules s.tree := by
      rw [← stocked.mem_dependencies_iff, split]
      simp
    obtain ⟨rule, parent, child, family⟩ := hs.family there
    refine ⟨!(e.parentValue s.controls).isFilled, fun all =>
      Choice.narrow all rule.linkProperty (e.parentValue s.controls), fun t ht _ akin => ?_⟩
    have stands : e.Stands t.config t.controls rule := by
      refine ⟨akin.config ▸ family.rule, child.value, ?_⟩
      rw [ControlSet.value?_congr akin.readings]
      exact ControlSet.value?_of_get? family.child
    rw [← akin.parentValue]
    exact ht.decided (akin.dependencies.trans split) (fun d hd same => others d hd same.symm) stands
  · refine ⟨false, fun all => all, fun t _ free akin => ?_⟩
    have none : ∀ e ∈ t.dependencies, id ≠ e.child := by
      intro e he same
      exact dependent ⟨e, akin.dependencies ▸ he, same.symm⟩
    exact ⟨free.unlocked id none, free.whole id none⟩

/-- The locks of controls with identifiers of their own, from look-up. -/
theorem map_lock_eq {controls : ControlSet} (distinct : controls.ids.Nodup) :
    controls.map BoundControl.lock = controls.ids.map fun id =>
      (id, ((controls.get? id).map Control.dependencyLocked).getD false) := by
  rw [ControlSet.ids, List.map_map]
  refine List.map_congr_left fun b hb => ?_
  rw [Function.comp, ControlSet.get?_of_mem distinct hb]
  rfl

theorem Akin.locks (h : Akin s t) (hs : s.Standing) (ht : t.Standing) (stocked : s.Stocked)
    (stocked' : t.Stocked) :
    t.controls.map BoundControl.lock = s.controls.map BoundControl.lock := by
  have ids := ControlSet.ids_congr h.readings
  rw [map_lock_eq ht.bound.distinct, map_lock_eq hs.bound.distinct, ids]
  refine List.map_congr_left fun id hid => ?_
  obtain ⟨c, found⟩ := ControlSet.exists_get?_iff.2 hid
  obtain ⟨d, found'⟩ := ControlSet.exists_get?_iff.2 (ids ▸ hid)
  obtain ⟨locked, offered, decided⟩ := hs.exists_decision stocked id
  have lock := (decided s hs stocked ⟨rfl, rfl, rfl, rfl⟩).1 c found
  have lock' := (decided t ht stocked' h).1 d found'
  rw [found, found', Option.map_some, Option.map_some, lock, lock']

/-- Which choices are on offer is decided by the readings and by which choices there are. -/
theorem Akin.catalog_eq (h : Akin s t) (hs : s.Standing) (ht : t.Standing) (stocked : s.Stocked)
    (stocked' : t.Stocked) (shut : t.catalog.shut = s.catalog.shut) : t.catalog = s.catalog := by
  have offers : t.catalog.offers = s.catalog.offers := by
    refine Table.ext stocked'.sound.offers stocked.sound.offers fun id => ?_
    obtain ⟨locked, offered, decided⟩ := hs.exists_decision stocked id
    have same := congrArg (fun c => Catalog.offer? id c) shut
    simp only [Catalog.offer?_shut, Catalog.shut?] at same
    cases found : s.catalog.offer? id with
    | none =>
      rw [found, Option.map_none, Option.map_eq_none_iff] at same
      exact same.trans found.symm
    | some o =>
      rw [found, Option.map_some] at same
      obtain ⟨o', found', equal⟩ := Option.map_eq_some_iff.1 same
      have available := (decided s hs stocked ⟨rfl, rfl, rfl, rfl⟩).2 o found
      have available' := (decided t ht stocked' h).2 o' found'
      have all : o'.all = o.all := by
        have equal := congrArg Offer.all equal
        exact equal
      have told : ∀ o : Offer, o = { o.shut with available := o.available } := fun _ => rfl
      refine found'.trans (Eq.trans ?_ found.symm)
      rw [told o', told o, equal, available, available', all]
  have rest : t.catalog = { s.catalog with offers := t.catalog.offers } := by
    have parts := Catalog.mk.inj shut
    exact Catalog.mk.injEq .. ▸ ⟨parts.1, parts.2.1, parts.2.2.1, rfl⟩
  rw [rest, offers]

/-- Two settled forms with the same fields and choices are the same as soon as each of them is below the
other one. -/
theorem Standing.eq_of_fades (hs : s.Standing) (ht : t.Standing) (stocked : s.Stocked)
    (stocked' : t.Stocked) (there : s.controls.Fades t.controls) (back : t.controls.Fades s.controls)
    (shut : t.catalog.shut = s.catalog.shut) (frame : t.frame = s.frame) : t = s := by
  have readings := ControlSet.readings_eq_of_fades there back
  obtain ⟨config, tree, dependencies⟩ := of_frame frame
  have akin : Akin s t := ⟨config, tree, dependencies, readings⟩
  have locks := akin.locks hs ht stocked stocked'
  have controls : t.controls = s.controls := by
    rw [ht.controls_eq, hs.controls_eq, wanted_congr akin.tree readings,
      ControlSet.unshown_eq_of_fades there back locks]
  have groups : t.groups = s.groups := by
    rw [ht.groups_eq, hs.groups_eq, akin.tree, controls]
  have catalog := akin.catalog_eq hs ht stocked stocked' shut
  have told : ∀ s : Session, s = { s.frame with
      catalog := s.catalog, controls := s.controls, groups := s.groups } := fun _ => rfl
  rw [told t, told s, frame, catalog, controls, groups]

end Session

end Formwork
