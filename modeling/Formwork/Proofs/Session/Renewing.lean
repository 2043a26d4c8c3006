import Formwork.Proofs.Layout.Instances
import Formwork.Proofs.Layout.Telling
import Formwork.Proofs.Session.Listed
import Formwork.Proofs.Settling.Echoing
import Formwork.Session.View

/-!
# A new form for the document of another

A document is loaded into a new form that is otherwise like another one. If the document tells the counts of
the groups that the other form has, the new one is laid out in the same way. The document gives controls that
hold data their values; they keep them as the form settles, because it can differ from the other one only in
labels to which nothing refers and in choices that have not arrived.
-/
namespace Formwork

namespace Session

/-- A new session for the template, in the same name and at the same step. -/
def opened (now : String) (s : Session) : Session :=
  ((start now s.config s.template).withIdentity s.operator).setStep s.step

def reopened (now : String) (raw : Option String) (s : Session) : Session :=
  (s.opened now).loadDocument raw

/-- What a new session binds controls with. -/
def newCircumstances (s : Session) (now : String) (document : Fields) : Circumstances :=
  ⟨s.config, s.operator, !document.isEmpty, now⟩

/-- A form that is laid out and bound for a document, and knows nothing else. -/
structure Renews (s : Session) (now : String) (document : Fields) (v : Session) : Prop where
  config : v.config = s.config
  built : FormTree.build ⟨s.step, document, s.config.repeatFallbackMax⟩ s.template .empty =
    (v.tree, v.registry)
  dependencies : v.dependencies =
    Dependency.ordered (Dependency.ofRules s.config.dependentRules v.tree)
  controls : v.controls = .ofTree (s.newCircumstances now document) document v.tree
  catalog : v.catalog.offers = v.listed.offers

variable {s t v : Session}

/-- The form is about the same things and at the same time, and the same sources have answered. -/
structure SameSubject (s t : Session) : Prop where
  config : t.config = s.config
  template : t.template = s.template
  operator : t.operator = s.operator
  step : t.step = s.step
  now : t.now = s.now
  cache : t.catalog.cache = s.catalog.cache

theorem sameSubject_rebuild (before : Fields) (s : Session) : s.SameSubject (s.rebuild before) := by
  have rebuilt : s.rebuild before = ((s.layOut.bind before).reconcile).settle := rfl
  obtain ⟨offers, catalog, -⟩ := ((s.layOut.bind before).reconcile).catalog_settle
  constructor
  case cache =>
    rw [rebuilt, catalog]
    rfl
  all_goals
    rw [rebuilt, settle_eq]
    rfl

theorem subject_identified (now : String) (s : Session) :
    let first := (start now s.config s.template).withIdentity s.operator
    first.config = s.config ∧ first.template = s.template ∧ first.operator = s.operator ∧
      first.now = now := by
  obtain ⟨u, begun, config, template, operator, time⟩ : ∃ u : Session,
      start now s.config s.template = u.rebuild [] ∧ u.config = s.config ∧
        u.template = s.template ∧ u.operator = none ∧ u.now = now :=
    ⟨_, rfl, rfl, rfl, rfl, rfl⟩
  have subject := sameSubject_rebuild [] u
  rw [← begun] at subject
  cases s.operator with
  | none =>
    exact ⟨subject.config.trans config, subject.template.trans template,
      subject.operator.trans operator, subject.now.trans time⟩
  | some name =>
    let named := { start now s.config s.template with operator := some name }
    have subject' := sameSubject_rebuild named.stored named
    exact ⟨subject'.config.trans (subject.config.trans config),
      subject'.template.trans (subject.template.trans template), subject'.operator,
      subject'.now.trans (subject.now.trans time)⟩

/-- A new session is about the same things, and no source has answered. -/
theorem sameSubject_opened (now : String) (s : Session) :
    { s with now, catalog := .empty }.SameSubject (s.opened now) := by
  obtain ⟨config, template, operator, time⟩ := subject_identified now s
  let first := (start now s.config s.template).withIdentity s.operator
  have subject := sameSubject_rebuild first.mergedDocument { first with
    stored := first.mergedDocument, step := s.step, catalog := first.catalog.renew, selections := [] }
  exact ⟨subject.config.trans config, subject.template.trans template,
    subject.operator.trans operator, subject.step, subject.now.trans time, subject.cache⟩

/-- Loading a text begins anew for all that is not the subject of the form. -/
theorem exists_renews_of_sameSubject {now : String} (raw : Option String) {w : Session}
    (subject : { s with now, catalog := .empty }.SameSubject w) :
    ∃ v, s.Renews now (Document.parse raw) v ∧ w.loadDocument raw = v.reconcile.settle := by
  obtain ⟨config, template, stored, hasStored, operator, step, now', registry, tree, controls,
    ⟨generation, cache, inFlight, offers⟩, dependencies, selections, groups⟩ := w
  obtain ⟨sameConfig, sameTemplate, sameOperator, sameStep, sameNow, sameCache⟩ := subject
  dsimp only at sameConfig sameTemplate sameOperator sameStep sameNow sameCache
  subst sameConfig sameTemplate sameOperator sameStep sameNow sameCache
  let document := Document.parse raw
  let u : Session := ⟨s.config, s.template, document, !document.isEmpty, s.operator, s.step, now', .empty,
    tree, controls, ⟨generation, Catalog.empty.cache, inFlight, offers⟩, dependencies, [], groups⟩
  exact ⟨u.layOut.bind document, ⟨rfl, rfl, rfl, rfl, rfl⟩, rfl⟩

/-- Loading a text into a new session lays out and binds the form for the document, and settles it. -/
theorem exists_renews (now : String) (raw : Option String) (s : Session) :
    ∃ v, s.Renews now (Document.parse raw) v ∧ s.reopened now raw = v.reconcile.settle :=
  exists_renews_of_sameSubject raw (s.sameSubject_opened now)

/-! ## Groups -/

/-- The same repeated groups with the same counts. -/
structure SameGroups (s t : Session) : Prop where
  entries : t.registry.entries = s.registry.entries
  counts : ∀ key e, s.registry.entry? key = some e → t.registry.count? key = s.registry.count? key

/-- The document names as many instances of each group as there are. -/
def Numbered (s : Session) (document : Fields) : Prop :=
  ∀ key e, s.registry.entry? key = some e →
    ∀ n, s.registry.count? key = some n → e.Spans document.names n

theorem SameGroups.repeatGroups (h : s.SameGroups t) (laidOut : s.LaidOut) :
    t.repeatGroups = s.repeatGroups := by
  obtain ⟨stored, registry, built⟩ := laidOut
  have ascending := FormTree.ascending_entries_of_build built
  rw [Session.repeatGroups, Session.repeatGroups, h.entries]
  refine List.map_congr_left fun (key, e) there => ?_
  have entry : s.registry.entry? key = some e := (Table.get?_eq_some_iff ascending).2 there
  have entry' : t.registry.entry? key = some e := by
    rw [Registry.entry?, h.entries]
    exact entry
  obtain ⟨rfl, -⟩ := FormTree.holds_of_build built entry
  have count := h.counts e.key e entry
  simp only [repeatStatus, Registry.canAdd, Registry.known?, entry, entry', count]

variable {now : String} {document : Fields}

/-- A document numbers the groups just if it tells their counts. -/
theorem LaidOut.numbered_iff (laidOut : s.LaidOut) : s.Numbered document ↔
    ∀ key e, s.registry.entry? key = some e → s.registry.count? key = some (e.toldCount document) := by
  obtain ⟨stored, registry, built⟩ := laidOut
  rw [Numbered]
  refine forall₃_congr fun key e entry => ?_
  obtain ⟨-, n, count, holds⟩ := FormTree.holds_of_build built entry
  have told : e.toldCount document = n ↔ _ := RepeatEntry.toldCount_eq_iff holds.ordered holds.greatest
  rw [count, Option.some.injEq, eq_comm, told]
  constructor
  · exact fun spans => spans n rfl
  · rintro spans _ ⟨⟩
    exact spans

theorem SameGroups.numbered (same : s.SameGroups v) (laidOut : s.LaidOut)
    (h : s.Renews now document v) : s.Numbered document := by
  refine laidOut.numbered_iff.2 fun key e entry => ?_
  have entry' : v.registry.entry? key = some e := by
    rw [Registry.entry?, same.entries]
    exact entry
  rw [← same.counts key e entry, ← Registry.countFor_of_unrecorded (r := .empty) rfl]
  exact FormTree.count?_of_build h.built entry'

/-- A new form for a document that numbers the groups is laid out like the one that is there. -/
theorem Renews.laidOut_of_numbered (h : s.Renews now document v) (laidOut : s.LaidOut)
    (numbered : s.Numbered document) : v.tree = s.tree ∧ s.SameGroups v := by
  obtain ⟨stored, registry, built⟩ := laidOut
  let layout' : Layout := ⟨s.step, document, s.config.repeatFallbackMax⟩
  have step : layout'.step = s.step := rfl
  have tells : layout'.Tells ⟨s.step, stored, s.config.repeatFallbackMax⟩ .empty s.registry := by
    refine ⟨rfl, fun key e entry => ?_⟩
    rw [Registry.countFor_of_unrecorded rfl]
    exact (LaidOut.numbered_iff ⟨stored, registry, built⟩).1 numbered key e entry
  obtain ⟨again, built', entries, counts⟩ := FormTree.build_retold built step tells
  obtain ⟨tree, rfl⟩ := Prod.mk.inj (h.built.symm.trans built')
  exact ⟨tree, entries, counts⟩

/-! ## Values -/

/-- Labels are not stored. Those that the form consults have the value with which a new form binds them. -/
def LabelsFresh (s : Session) (now : String) (document : Fields) : Prop :=
  ∀ p ∈ s.tree.fields, p.field.kind.isDecorative = true → s.Consults p.controlId →
    s.controls.value? p.controlId =
      some (p.field.initialValue (s.newCircumstances now document) (Table.get? p.controlId document))

/-- The document has the values of the controls that hold data. -/
def Stored (s : Session) (document : Fields) : Prop :=
  ∀ p ∈ s.tree.fields, p.field.kind.isDecorative = false →
    s.controls.value? p.controlId = Table.get? p.controlId document

end Session

/-- A value in the spelling of the choices is kept. -/
theorem Catalog.value?_reconcile_of_spelled {c : Catalog} {id : String} {controls : ControlSet}
    (spelled : ∀ b, b.id = id → controls.value? id = some b.state.value → c.Spelled b) :
    (c.reconcile controls).value? id = controls.value? id := by
  rw [value?_reconcile]
  cases held : controls.value? id with
  | none => rfl
  | some v =>
    obtain ⟨b, -, rfl, rfl⟩ := ControlSet.exists_of_value? held
    rw [Option.map_some, ← value_reconciled, reconciled_of_spelled (spelled b rfl held)]

namespace Session

variable {s t v : Session} {now : String} {document : Fields}

namespace Renews

variable (h : s.Renews now document v) (tree : v.tree = s.tree) (founded : s.Founded)

include h tree

theorem offer?_eq (id : String) : v.catalog.offer? id = s.listed.offer? id := by
  rw [Catalog.offer?, h.catalog, listed, listed, h.config, tree, Catalog.offer?]

theorem within (lists : s.Lists) : v.catalog.Within s.catalog := by
  intro id o found
  rw [h.offer?_eq tree] at found
  exact lists.within id o found

include founded

/-- A control is bound with what the document has for it, or else anew. -/
theorem value?_eq {p : PlacedField} (hp : p ∈ s.tree.fields) : v.controls.value? p.controlId =
    some (p.field.initialValue (s.newCircumstances now document) (Table.get? p.controlId document)) := by
  rw [h.controls, tree]
  exact value?_bind (u := { s with now, hasStored := !document.isEmpty }) founded.laidOut.distinct document
    hp

theorem cast_eq : v.reconcile.controls.cast = s.controls.cast := by
  have bound := ControlSet.cast_ofTree (s.newCircumstances now document) document founded.laidOut.distinct
  rw [reconcile, Catalog.cast_reconcile, h.controls, tree, bound, founded.cast]

omit founded in
/-- A control that is bound with the value that it has keeps it. -/
theorem value?_reconcile (spelt : s.Spelt) {id : String}
    (same : v.controls.value? id = s.controls.value? id) :
    v.reconcile.controls.value? id = s.controls.value? id := by
  rw [← same]
  refine Catalog.value?_reconcile_of_spelled fun b named value o found => ?_
  rw [same] at value
  obtain ⟨b', hb', named', held⟩ := ControlSet.exists_of_value? value
  have spelled := spelt b' hb' o
  rw [held] at spelled
  rw [h.offer?_eq tree, named, ← named'] at found
  exact spelled found

/-- A control that holds data is bound with the value that it has. -/
theorem value?_of_stored (stored : s.Stored document) {p : PlacedField} (hp : p ∈ s.tree.fields)
    (data : p.field.kind.isDecorative = false) :
    v.controls.value? p.controlId = s.controls.value? p.controlId := by
  obtain ⟨value, held⟩ := founded.exists_value hp
  have kept := stored p hp data
  rw [held] at kept ⊢
  rw [h.value?_eq tree founded hp, ← kept]
  rfl

/-- So is a control that the form consults. -/
theorem value?_of_consulted (stored : s.Stored document) (labels : s.LabelsFresh now document)
    {id : String} (consulted : s.Consults id) : v.controls.value? id = s.controls.value? id := by
  by_cases rendered : id ∈ s.tree.fields.map (·.controlId)
  · obtain ⟨p, hp, rfl⟩ := List.mem_map.1 rendered
    cases data : p.field.kind.isDecorative with
    | false => exact h.value?_of_stored tree founded stored hp data
    | true => rw [h.value?_eq tree founded hp, labels p hp data consulted]
  · have absent (u : ControlSet) (cast : u.cast = s.controls.cast) : u.value? id = none := by
      rwa [ControlSet.value?_eq_none_iff, ControlSet.get?_eq_none_iff,
        ControlSet.ids_eq_map_cast, cast, ← ControlSet.ids_eq_map_cast, founded.bound.ids]
    have bound := ControlSet.cast_ofTree (s.newCircumstances now document) document founded.laidOut.distinct
    rw [absent s.controls rfl, h.controls, tree, absent _ (bound.trans founded.cast.symm)]

end Renews

/-- When a new form for the document has settled, its controls that hold data have their values. -/
theorem Renews.value?_settle (h : s.Renews now document v) (tree : v.tree = s.tree) (standing : s.Standing)
    (stocked : s.Stocked) (lists : s.Lists) (spelt : s.Spelt) (stored : s.Stored document)
    (labels : s.LabelsFresh now document) {p : PlacedField} (hp : p ∈ s.tree.fields)
    (data : p.field.kind.isDecorative = false) :
    v.reconcile.settle.controls.value? p.controlId = s.controls.value? p.controlId := by
  have founded := standing.toFounded
  let apart (id : String) : Prop := v.reconcile.controls.value? id ≠ s.controls.value? id
  have unseen (id : String) (differs : apart id) : ¬s.Consults id := fun consulted =>
    differs (h.value?_reconcile tree spelt (h.value?_of_consulted tree founded stored labels consulted))
  have names := ControlSet.names_of_cast (h.cast_eq tree founded)
  have echoes : s.Echoes apart v.reconcile := by
    refine ⟨h.config, tree, ?_, ⟨names, fun id same => not_not.1 same⟩, h.within tree lists⟩
    have dependencies : v.reconcile.dependencies = v.dependencies := rfl
    rw [dependencies, h.dependencies, tree, stocked.dependencies]
  have kept := h.value?_reconcile tree spelt (h.value?_of_stored tree founded stored hp data)
  exact (echoes.settle unseen standing).controls.values p.controlId (not_not.2 kept)

end Session

end Formwork
