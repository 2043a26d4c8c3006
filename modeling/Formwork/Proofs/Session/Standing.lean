import Formwork.Proofs.Layout.Growth
import Formwork.Proofs.Session.Casting
import Formwork.Proofs.Session.Effects
import Formwork.Proofs.Settling.FixedPoint

/-!
# What holds of every session

The tree and the registry come from laying out the template, there is one control for each field, and a
further round of settling changes nothing. Operations either make the form anew, change values or
choices and settle the form again, or touch only what settling neither reads nor writes.
-/
namespace Formwork

/-- A change of what settling neither reads nor writes. -/
structure Control.Aside (f : Control → Control) : Prop where
  value : ∀ c, (f c).value = c.value
  unshown : ∀ c, (f c).unshown = f c.unshown
  hold : ∀ locked c, (f c).hold locked = f (c.hold locked)
  present : ∀ visible c, c.losesValue visible = false → (f c).present visible = f (c.present visible)

def BoundControl.change (f : String → Control → Control) (b : BoundControl) : BoundControl :=
  { b with state := f b.id b.state }

namespace Session

/-- The tree and the registry come from laying out the template for the step. -/
def LaidOut (s : Session) : Prop :=
  ∃ stored registry, FormTree.build ⟨s.step, stored, s.config.repeatFallbackMax⟩ s.template registry =
    (s.tree, s.registry)

structure Founded (s : Session) : Prop where
  laidOut : s.LaidOut
  cast : s.controls.cast = s.tree.fields.map PlacedField.cast

/-- The form is laid out, its controls are bound, and it is settled. -/
structure Standing (s : Session) : Prop extends s.Founded where
  fixed : s.round.1 = s

variable {s t : Session}

theorem LaidOut.distinct (h : s.LaidOut) : (s.tree.fields.map (·.controlId)).Nodup := by
  obtain ⟨stored, registry, built⟩ := h
  have distinct := FormTree.nodup_controlIds_build
    ⟨s.step, stored, s.config.repeatFallbackMax⟩ s.template registry
  rwa [built] at distinct

theorem laidOut_layOut (s : Session) : s.layOut.LaidOut := ⟨s.stored, s.registry, rfl⟩

theorem founded_bind (before : Fields) (s : Session) : (s.layOut.bind before).Founded :=
  ⟨laidOut_layOut s, ControlSet.cast_ofTree _ before (laidOut_layOut s).distinct⟩

theorem Founded.bound (h : s.Founded) : s.Bound := by
  have ids : s.controls.ids = s.tree.fields.map (·.controlId) := by
    rw [ControlSet.ids_eq_map_cast, h.cast, List.map_map]
    rfl
  exact ⟨ids, ids ▸ h.laidOut.distinct⟩

/-- Settling changes controls, offers and groups. -/
theorem settleWithin_eq (fuel : Nat) (s : Session) :
    settleWithin fuel s = { s with
      catalog := (settleWithin fuel s).catalog
      controls := (settleWithin fuel s).controls
      groups := (settleWithin fuel s).groups } := by
  induction fuel generalizing s with
  | zero => rfl
  | succ fuel ih =>
    rw [settleWithin]
    split
    · rw [ih]
      rfl
    · rfl

theorem settle_eq (s : Session) : s.settle = { s with
    catalog := s.settle.catalog, controls := s.settle.controls, groups := s.settle.groups } :=
  settleWithin_eq _ s

@[simp] theorem tree_settle (s : Session) : s.settle.tree = s.tree := by
  rw [settle_eq]

@[simp] theorem registry_settle (s : Session) : s.settle.registry = s.registry := by
  rw [settle_eq]

@[simp] theorem selections_settle (s : Session) : s.settle.selections = s.selections := by
  rw [settle_eq]

@[simp] theorem stored_settle (s : Session) : s.settle.stored = s.stored := by
  rw [settle_eq]

theorem template_rebuild (before : Fields) (s : Session) : (s.rebuild before).template = s.template := by
  rw [rebuild, settle_eq]
  rfl

/-- Going over to a step lays out the form for it. -/
theorem tree_setStep (s : Session) (step : Option String) : (s.setStep step).tree =
    (FormTree.build ⟨step, s.mergedDocument, s.config.repeatFallbackMax⟩ s.template s.registry).1 := by
  rw [setStep, rebuildFromStored, rebuild, tree_settle]
  rfl

theorem Founded.round (h : s.Founded) : s.round.1.Founded where
  laidOut := h.laidOut
  cast := by
    refine Eq.trans ?_ h.cast
    rw [round_eq]
    exact (VisibilityPlan.cast_apply _ _).trans (Refresh.cast_followAll h.bound.distinct s.catalog)

theorem Founded.settleWithin (h : s.Founded) (fuel : Nat) : (settleWithin fuel s).Founded := by
  induction fuel generalizing s with
  | zero => exact h
  | succ fuel ih =>
    rw [Session.settleWithin]
    split
    · exact ih h.round
    · exact h.round

theorem Founded.settle (h : s.Founded) : s.settle.Standing :=
  ⟨h.settleWithin _, h.bound.round_settle⟩

theorem Founded.reconcile (h : s.Founded) : s.reconcile.Founded :=
  ⟨h.laidOut, (s.catalog.cast_reconcile s.controls).trans h.cast⟩

/-- A form with other controls that are bound alike and with other offers. -/
theorem Founded.replace (h : s.Founded) {controls : ControlSet} (cast : controls.cast = s.controls.cast)
    (catalog : Catalog) (selections : Selections) :
    { s with controls, catalog, selections }.Founded :=
  ⟨h.laidOut, cast.trans h.cast⟩

/-- However a form is made anew, it is settled in the end. -/
theorem standing_rebuild (before : Fields) (s : Session) : (s.rebuild before).Standing :=
  (founded_bind before s).reconcile.settle

section Aside

variable {f : String → Control → Control} (aside : ∀ id, Control.Aside (f id))

include aside

theorem readings_map_change (controls : ControlSet) :
    ControlSet.readings (controls.map (BoundControl.change f)) = controls.readings := by
  rw [ControlSet.readings, ControlSet.readings, List.map_map]
  refine List.map_congr_left fun b _ => ?_
  simp [BoundControl.change, BoundControl.reading, (aside b.id).value]

theorem unshown_map_change (controls : ControlSet) :
    ControlSet.unshown (controls.map (BoundControl.change f)) =
      controls.unshown.map (BoundControl.change f) := by
  rw [ControlSet.unshown, ControlSet.unshown, List.map_map, List.map_map]
  refine List.map_congr_left fun b _ => ?_
  simp [BoundControl.change, (aside b.id).unshown]

theorem modify_hold_map_change (id : String) (locked : Bool) (controls : ControlSet) :
    ControlSet.modify id (.hold locked) (controls.map (BoundControl.change f)) =
      (controls.modify id (.hold locked)).map (BoundControl.change f) := by
  rw [ControlSet.modify, ControlSet.modify, List.map_map, List.map_map]
  refine List.map_congr_left fun b _ => ?_
  by_cases hid : b.id = id
  · simp [BoundControl.change, hid, (aside id).hold]
  · simp [BoundControl.change, hid]

theorem foldl_mark_map_change (config : Config) (controls : ControlSet) (edges : List Dependency)
    (x : ControlSet × Table Offer) :
    edges.foldl (Dependency.mark config controls) (x.1.map (BoundControl.change f), x.2) =
      ((edges.foldl (Dependency.mark config controls) x).1.map (BoundControl.change f),
        (edges.foldl (Dependency.mark config controls) x).2) := by
  induction edges generalizing x with
  | nil => rfl
  | cons e edges ih =>
    have first : Dependency.mark config controls (x.1.map (BoundControl.change f), x.2) e =
        ((Dependency.mark config controls x e).1.map (BoundControl.change f),
          (Dependency.mark config controls x e).2) := by
      unfold Dependency.mark
      split
      · rw [modify_hold_map_change aside]
      · rfl
    rw [List.foldl_cons, List.foldl_cons, first, ih]

theorem map_presentBy_map_change {fields : List (String × Bool)} {controls : ControlSet}
    (kept : ∀ b ∈ controls, b.losesValueBy fields = false) :
    (controls.map (BoundControl.change f)).map (BoundControl.presentBy fields) =
      (controls.map (BoundControl.presentBy fields)).map (BoundControl.change f) := by
  rw [List.map_map, List.map_map]
  refine List.map_congr_left fun b hb => ?_
  have kept := kept b hb
  cases found : Table.get? b.id fields with
  | none =>
    have found' : Table.get? (b.change f).id fields = none := found
    rw [Function.comp, Function.comp, BoundControl.presentBy_of_none found,
      BoundControl.presentBy_of_none found']
  | some visible =>
    have found' : Table.get? (b.change f).id fields = some visible := found
    rw [BoundControl.losesValueBy_of_some found] at kept
    rw [Function.comp, Function.comp, BoundControl.presentBy_of_some found,
      BoundControl.presentBy_of_some found']
    simp only [BoundControl.change, (aside b.id).present visible b.state kept]

end Aside

theorem Standing.quiet (h : s.Standing) : s.Quiet :=
  h.bound.quiet_of_readings (by rw [h.fixed])

/-- A settled form stays settled under changes of what settling neither reads nor writes. -/
theorem Standing.aside (h : s.Standing) {f : String → Control → Control}
    (aside : ∀ id, Control.Aside (f id)) (config : t.config = s.config)
    (tree : t.tree = s.tree) (dependencies : t.dependencies = s.dependencies)
    (offers : t.catalog.offers = s.catalog.offers) (groups : t.groups = s.groups)
    (controls : t.controls = s.controls.map (BoundControl.change f)) : t.round.1 = t := by
  have readings : t.controls.readings = s.controls.readings := by
    rw [controls, readings_map_change aside]
  have ids := ControlSet.ids_congr readings
  have bound : t.Bound := ⟨by rw [ids, tree]; exact h.bound.ids, by rw [ids]; exact h.bound.distinct⟩
  have wanted : t.wanted = s.wanted := wanted_congr tree readings
  have quiet : t.Quiet := by
    constructor
    · have alike : Refresh.Alike ⟨s.controls, s.catalog, false⟩ ⟨t.controls, t.catalog, false⟩ :=
        ⟨readings, fun id => by simp only [Catalog.offer?, offers]⟩
      intro e he
      rw [dependencies] at he
      rw [config]
      exact (alike.loses_eq e).trans (h.quiet.respects e he)
    · rw [wanted]
      exact (keeps_congr readings s.wanted).2 h.quiet.keeps
  have marked : t.marked = (s.marked.1.map (BoundControl.change f), s.marked.2) := by
    rw [marked, config, dependencies, offers, Dependency.mark_congr readings, controls,
      unshown_map_change aside, foldl_mark_map_change aside s.config s.controls s.dependencies
        (s.controls.unshown, s.catalog.offers)]
    rfl
  have settled := h.quiet.round h.bound
  rw [h.fixed] at settled
  have kept : ∀ b ∈ s.marked.1, b.losesValueBy s.wanted = false := by
    obtain ⟨alike, same, -⟩ := h.quiet.refresh h.bound
    rw [← same]
    refine (keeps_congr ?_ s.wanted).2 h.quiet.keeps
    rw [ControlSet.readings_unshown, alike.1]
  have controls_eq : s.marked.1.map (BoundControl.presentBy s.wanted) = s.controls :=
    (congrArg Session.controls settled).symm
  have offers_eq : s.marked.2 = t.catalog.offers := by
    rw [offers]
    exact (congrArg (fun s => s.catalog.offers) settled).symm
  have groups_eq : (s.tree.plan s.controls).groupTable = t.groups := by
    rw [groups]
    exact (congrArg Session.groups settled).symm
  rw [quiet.round bound, marked, wanted, tree, FormTree.plan_congr readings, groups_eq, offers_eq,
    map_presentBy_map_change aside kept, controls_eq, ← controls, ← tree]

theorem aside_id : Control.Aside id :=
  ⟨fun _ => rfl, fun _ => rfl, fun _ _ => rfl, fun _ _ _ => rfl⟩

/-- Settling reads neither where a control started from nor what became of it since, unless it empties it. -/
theorem aside_history (initial : Json → Json → Json) (touched dirty : Bool → Bool) :
    Control.Aside fun c =>
      { c with initial := initial c.value c.initial, touched := touched c.touched, dirty := dirty c.dirty } where
  value := fun _ => rfl
  unshown := fun _ => rfl
  hold := fun _ _ => rfl
  present := by
    intro visible c kept
    have kept' : Control.losesValue visible
        { c with
          initial := initial c.value c.initial
          touched := touched c.touched
          dirty := dirty c.dirty } = false := kept
    simp only [Control.present, kept, kept']
    rfl

theorem aside_touch : Control.Aside Control.touch :=
  aside_history (fun _ initial => initial) (fun _ => true) id

theorem aside_commit : Control.Aside Control.commit :=
  aside_history (fun value _ => value) id fun _ => false

/-- A form that differs from a settled one in nothing that settling reads or writes. -/
theorem Standing.of_same (h : s.Standing) (laidOut : t.LaidOut) (config : t.config = s.config)
    (tree : t.tree = s.tree) (dependencies : t.dependencies = s.dependencies)
    (offers : t.catalog.offers = s.catalog.offers) (groups : t.groups = s.groups)
    (controls : t.controls = s.controls) : t.Standing := by
  refine ⟨⟨laidOut, by rw [controls, tree]; exact h.cast⟩, ?_⟩
  refine h.aside (fun _ => aside_id) config tree dependencies offers groups ?_
  rw [controls]
  exact (List.map_id _).symm

theorem aside_touch_at (id other : String) :
    Control.Aside fun c => if other = id then c.touch else c := by
  by_cases same : other = id
  · simp only [same, if_true]
    exact aside_touch
  · simp only [same, if_false]
    exact aside_id

theorem Standing.touch (h : s.Standing) (id : String) :
    { s with controls := s.controls.modify id Control.touch }.Standing := by
  have keeps : Control.Keeps Control.touch := fun _ => ⟨rfl, rfl⟩
  constructor
  · exact h.replace (ControlSet.cast_modify id keeps s.controls) s.catalog s.selections
  · refine h.aside (aside_touch_at id) rfl rfl rfl rfl rfl (List.map_congr_left fun b _ => ?_)
    by_cases hid : b.id = id <;> simp [BoundControl.change, hid]

theorem Standing.commitSaved (h : s.Standing) (document : Fields) :
    (s.commitSaved document).Standing :=
  ⟨⟨h.laidOut, (ControlSet.cast_commit s.controls).trans h.cast⟩,
    h.aside (fun _ => aside_commit) rfl rfl rfl rfl rfl rfl⟩

theorem Standing.askForChoices (h : s.Standing) : s.askForChoices.2.Standing :=
  h.of_same h.laidOut rfl rfl rfl rfl rfl rfl

/-- Every operation keeps what holds of a session. -/
theorem Standing.run (h : s.Standing) (operation : Operation) : (s.run operation).Standing := by
  have effect := s.effect_run operation
  generalize s.run operation = t at effect ⊢
  cases effect with
  | refused => exact h
  | passTime => exact h.of_same h.laidOut rfl rfl rfl rfl rfl rfl
  | setOperator => exact standing_rebuild _ _
  | loadTemplate => exact standing_rebuild _ _
  | fetchTemplate => exact standing_rebuild _ _
  | loadDocument => exact standing_rebuild _ _
  | fetchDocument => exact standing_rebuild _ _
  | setStep => exact standing_rebuild _ _
  | setValue _ _ _ set =>
    exact (h.replace (ControlSet.cast_set? set) s.catalog s.selections).reconcile.settle
  | touch id => exact h.touch id
  | addInstance => exact standing_rebuild _ _
  | removeInstance => exact standing_rebuild _ _
  | askForChoices => exact h.askForChoices
  | missedChoices => exact h
  | receiveChoices => exact (h.replace rfl _ s.selections).reconcile.settle
  | resolveChoices => exact (h.askForChoices.replace rfl _ s.selections).reconcile.settle
  | select _ _ _ _ _ taken => exact (h.replace (Lookup.cast_select? taken) s.catalog _).reconcile.settle
  | deselect _ _ _ _ taken => exact (h.replace (Lookup.cast_clear? taken) s.catalog _).settle
  | commitSaved document => exact h.commitSaved document
  | save _ _ document => exact h.commitSaved document

theorem Reachable.standing (h : Reachable s) : s.Standing := by
  induction h with
  | start now config template => exact standing_rebuild _ _
  | run _ operation ih => exact ih.run operation

end Session

end Formwork
