import Formwork.Proofs.Layout.Parts
import Formwork.Proofs.Saving
import Mathlib.Data.List.Nodup
import Mathlib.Data.List.Pairwise

/-!
# Identifiers across steps

The values of all steps live in one document, each under the identifier of its control. A step shows some
sections, and a field has the same identifier in every step that shows it, and no other field ever has it, as
long as the sections that a step shows do not owe names to sections that it does not show. Then the document
keeps what was entered in other steps. Where two sections of different steps have a field of the same id this
fails: each of the two steps gives its field the plain name, and writes over what the other one stored.
-/
namespace Formwork

namespace Template

variable (t : Template) (layout : Layout) (registry : Registry) (step : Option String)

/-- What is laid out for the sections where all of them are shown. -/
def everything : List Part := FormTree.parts { layout with step := none } t registry

/-- A field of some section that is shown in the step has the name where all sections are shown. -/
def NamesField (name : String) : Prop :=
  ∃ x ∈ t.everything layout registry, x.source.shownIn step = true ∧
    ∃ f ∈ x.group.fields, f.controlId = name

/-- A group of some section that is shown in the step has the key where all sections are shown, and would
have it whatever else there is. -/
def NamesGroup (name : String) : Prop :=
  ∃ x ∈ t.everything layout registry, x.source.shownIn step = true ∧
    ∃ o ∈ x.origins, o.group.key = name ∧ o.IsFirm

/-- The sections that the step shows owe no name to a section that it does not show: where all sections are
shown, what their fields and repeated groups give way to is in them as well. -/
structure SelfContained : Prop where
  fields : ∀ x ∈ t.everything layout registry, x.source.shownIn step = true →
    ∀ f ∈ x.group.fields, ∀ name, f.GivesWayTo name → t.NamesField layout registry step name
  groups : ∀ x ∈ t.everything layout registry, x.source.shownIn step = true →
    ∀ o ∈ x.origins, o.group.repeatKey.isSome = true →
      ∀ name, o.GivesWayTo name → t.NamesGroup layout registry step name

/-- The names in the sections that the step shows. -/
def remains : Remains := ⟨t.NamesField layout registry step, t.NamesGroup layout registry step⟩

end Template

/-- Where nothing is repeated, an item comes from one part only. -/
theorem eq_of_mem_flatMap {α β : Type} {f : α → List β} {l : List α} (h : (l.flatMap f).Nodup) {x y : α}
    (hx : x ∈ l) (hy : y ∈ l) {b : β} (hb : b ∈ f x) (hb' : b ∈ f y) : x = y := by
  by_contra apart
  have symmetric : Std.Symm (Function.onFun List.Disjoint f) := ⟨fun _ _ => List.disjoint_symm⟩
  exact (List.nodup_flatMap.1 h).2.forall hx hy apart hb hb'

namespace Template

variable {t : Template} {layout : Layout} {registry : Registry} {step : Option String} {x y : Part}

theorem nodup_controlIds_everything : ((t.everything layout registry).flatMap
    fun x => x.group.fields.map (·.controlId)).Nodup := by
  have distinct := FormTree.nodup_controlIds_build { layout with step := none } t registry
  have fields := Progress.flatMap_fields_parts { layout with step := none } (FormTree.outset registry)
    (t.shown none)
  rw [← List.map_flatMap, everything, FormTree.parts_eq, fields, ← blueprints_eq]
  exact distinct

theorem nodup_keys_everything : ((t.everything layout registry).flatMap
    fun x => x.origins.map (·.group.key)).Nodup := by
  obtain ⟨q, -, grown⟩ := FormTree.build_grown { layout with step := none } t registry
  have distinct := grown.distinct.groups
  rw [grown.groupKeys, FormTree.outset, List.append_nil] at distinct
  have groups := Progress.map_group_parts { layout with step := none } (FormTree.outset registry)
    (t.shown none)
  rw [← List.map_flatMap, everything, FormTree.parts_eq]
  have keys := congrArg (List.map Group.key) groups
  rw [List.map_map] at keys
  refine Eq.mpr (congrArg List.Nodup keys) ?_
  rw [← blueprints_eq]
  exact (List.pairwise_reverse.1 distinct).imp Ne.symm

/-- Where all sections are shown, no two fields have the same identifier. -/
theorem eq_of_controlId (hx : x ∈ t.everything layout registry) (hy : y ∈ t.everything layout registry)
    {f g : PlacedField} (hf : f ∈ x.group.fields) (hg : g ∈ y.group.fields)
    (same : f.controlId = g.controlId) : x = y :=
  eq_of_mem_flatMap nodup_controlIds_everything hx hy (List.mem_map_of_mem hf)
    (same ▸ List.mem_map_of_mem hg)

/-- Where all sections are shown, no two groups have the same key. -/
theorem eq_of_key (hx : x ∈ t.everything layout registry) (hy : y ∈ t.everything layout registry)
    {o o' : Origin} (ho : o ∈ x.origins) (ho' : o' ∈ y.origins)
    (same : o.group.key = o'.group.key) : x = y ∧ o = o' := by
  obtain rfl : x = y := eq_of_mem_flatMap nodup_keys_everything hx hy (List.mem_map_of_mem ho)
    (List.mem_map.2 ⟨o', ho', same.symm⟩)
  have distinct : (x.origins.flatMap fun o => [o.group.key]).Nodup := by
    rw [← List.map_eq_flatMap]
    exact (List.nodup_flatMap.1 nodup_keys_everything).1 _ hx
  exact ⟨rfl, eq_of_mem_flatMap distinct ho ho' (List.mem_singleton.2 rfl) (List.mem_singleton.2 same)⟩

theorem groups_everything (hx : x ∈ t.everything layout registry) :
    x.origins.map Origin.group = x.group.withGroupsBelow := by
  rw [everything, FormTree.parts_eq] at hx
  exact Progress.map_group_of_mem_parts hx

/-- What a step lays out for a section has the fields that are there where all sections are shown. -/
theorem SelfContained.exists_part (h : t.SelfContained layout registry step)
    (hy : y ∈ FormTree.parts { layout with step } t registry) :
    ∃ x ∈ t.everything layout registry, x.number = y.number ∧ x.source = y.source ∧
      x.group.fields = y.group.fields := by
  have start : (t.remains layout registry step).Thinned (FormTree.outset registry).registry
      (FormTree.outset registry) (FormTree.outset registry) :=
    ⟨fun name => by simp [FormTree.outset], fun _ h => h, fun _ h _ => h, fun _ _ => rfl,
      fun _ _ => rfl⟩
  have all : t.everything layout registry =
      (FormTree.outset registry).parts { layout with step := none } (t.shown none) :=
    FormTree.parts_eq { layout with step := none } t registry
  rw [FormTree.parts_eq, shown_eq_filter] at hy
  rw [all]
  refine Progress.parts_thinned start ⟨List.nodup_nil, List.nodup_nil⟩ step ?_ ?_ y hy
  · rw [← all]
    intro x hx shows
    refine ⟨fun f hf => ⟨⟨x, hx, shows, f, hf, rfl⟩, h.fields x hx shows f hf⟩,
      fun o ho => ⟨?_, h.groups x hx shows o ho⟩⟩
    rintro ⟨y, hy, -, o', ho', same, firm⟩
    obtain ⟨-, rfl⟩ := eq_of_key hx hy ho ho' same.symm
    exact firm
  · rw [← all]
    intro x hx absent
    constructor
    · rintro f hf ⟨y, hy, shows, g, hg, same⟩
      obtain rfl := eq_of_controlId hx hy hf hg same.symm
      rw [absent] at shows
      cases shows
    · rintro g hg ⟨y, hy, shows, o', ho', same, -⟩
      rw [← groups_everything hx] at hg
      obtain ⟨o, ho, rfl⟩ := List.mem_map.1 hg
      obtain ⟨rfl, -⟩ := eq_of_key hx hy ho ho' same.symm
      rw [absent] at shows
      cases shows

theorem eq_of_number (hx : x ∈ t.everything layout registry) (hy : y ∈ t.everything layout registry)
    (same : x.number = y.number) : x = y := by
  have numbers : ((t.everything layout registry).map (·.number)).Nodup := by
    rw [everything, FormTree.parts_eq, Progress.map_number_parts]
    exact t.nodup_numbers none
  rw [List.map_eq_flatMap] at numbers
  exact eq_of_mem_flatMap numbers hx hy (List.mem_singleton.2 rfl) (List.mem_singleton.2 same)

/-- In two self-contained steps a section has the same fields, and no identifier is that of two. -/
theorem SelfContained.controlId_eq_iff {σ τ : Option String} (hσ : t.SelfContained layout registry σ)
    (hτ : t.SelfContained layout registry τ)
    (hx : x ∈ FormTree.parts { layout with step := σ } t registry)
    (hy : y ∈ FormTree.parts { layout with step := τ } t registry) :
    (x.number = y.number → x.group.fields = y.group.fields) ∧
      ∀ (i j : Nat) (f g : PlacedField), x.group.fields[i]? = some f → y.group.fields[j]? = some g →
        (f.controlId = g.controlId ↔ x.number = y.number ∧ i = j) := by
  obtain ⟨x', hx', number, -, fields⟩ := hσ.exists_part hx
  obtain ⟨y', hy', number', -, fields'⟩ := hτ.exists_part hy
  have alike : x.number = y.number → x.group.fields = y.group.fields := by
    intro same
    obtain rfl := eq_of_number hx' hy' (number.trans (same.trans number'.symm))
    exact fields.symm.trans fields'
  refine ⟨alike, fun i j f g hf hg => ⟨fun same => ?_, ?_⟩⟩
  · have mem : f ∈ x'.group.fields := fields ▸ List.mem_of_getElem? hf
    have mem' : g ∈ y'.group.fields := fields' ▸ List.mem_of_getElem? hg
    obtain rfl := eq_of_controlId hx' hy' mem mem' same
    have distinct : (x'.group.fields.map (·.controlId)).Nodup :=
      (List.nodup_flatMap.1 nodup_controlIds_everything).1 _ hx'
    refine ⟨number.symm.trans number', ?_⟩
    rw [← fields] at hf
    rw [← fields'] at hg
    obtain ⟨hi, -⟩ := List.getElem?_eq_some_iff.1 hf
    refine (List.getElem?_inj (by simpa using hi) distinct).1 ?_
    rw [List.getElem?_map, List.getElem?_map, hf, hg, Option.map_some, Option.map_some, same]
  · rintro ⟨same, rfl⟩
    rw [alike same, hg] at hf
    rw [Option.some.inj hf]

/-- The fields of a form are those of its sections. -/
theorem fields_eq_flatMap_parts {layout : Layout} : (FormTree.build layout t registry).1.fields =
    (FormTree.parts layout t registry).flatMap (·.group.fields) := by
  rw [FormTree.parts_eq, Progress.flatMap_fields_parts, ← blueprints_eq]
  rfl

theorem exists_part_of_field {layout : Layout} {f : PlacedField}
    (hf : f ∈ (FormTree.build layout t registry).1.fields) :
    ∃ y ∈ FormTree.parts layout t registry, f ∈ y.group.fields :=
  List.mem_flatMap.1 (fields_eq_flatMap_parts ▸ hf)

theorem shownIn_of_mem_parts {layout : Layout} (hy : y ∈ FormTree.parts layout t registry) :
    y.source.shownIn layout.step = true := by
  rw [FormTree.parts_eq, shown_eq_filter] at hy
  exact (List.mem_filter.1 (Progress.mem_of_mem_parts hy)).2

/-- A step is self-contained if its repeated groups have the keys that they asked for, and each of its fields
has the name that it asked for, unless the step shows every field whose name begins with that one. -/
theorem selfContained_of_asked
    (fields : ∀ x ∈ t.everything layout registry, x.source.shownIn step = true →
      ∀ f ∈ x.group.fields, f.controlId = f.asked ∨
        ∀ y ∈ t.everything layout registry, ∀ g ∈ y.group.fields,
          f.asked.toList <+: g.controlId.toList → y.source.shownIn step = true)
    (groups : ∀ x ∈ t.everything layout registry, x.source.shownIn step = true →
      ∀ o ∈ x.origins, o.group.repeatKey.isSome = true → o.group.key = o.asked) :
    t.SelfContained layout registry step where
  fields x hx shows f hf name gives := by
    rcases fields x hx shows f hf with asked | near
    · rw [PlacedField.GivesWayTo, asked] at gives
      exact absurd gives (not_givesWay_self (controlVariant_ne f.asked))
    · have placed : f ∈ (FormTree.build { layout with step := none } t registry).1.fields := by
        rw [fields_eq_flatMap_parts]
        exact List.mem_flatMap.2 ⟨x, hx, hf⟩
      obtain ⟨g, hg, rfl⟩ := FormTree.exists_of_givesWayTo placed gives
      obtain ⟨y, hy, mem⟩ := exists_part_of_field hg
      exact ⟨y, hy, near y hy g mem (prefix_of_givesWay gives), g, mem, rfl⟩
  groups x hx shows o ho repeats name gives := by
    rw [Origin.GivesWayTo, groups x hx shows o ho repeats] at gives
    exact absurd gives (not_givesWay_self (groupVariant_ne o.asked))

/-- Between two self-contained steps a section keeps the identifiers of its fields, no identifier is that
of two fields, and neither saving nor going over to another step changes in the document what belongs to a
section that is not shown. -/
theorem controlIds_of_selfContained {σ τ : Option String} (hσ : t.SelfContained layout registry σ)
    (hτ : t.SelfContained layout registry τ) :
    (∀ x ∈ FormTree.parts { layout with step := σ } t registry,
      ∀ y ∈ FormTree.parts { layout with step := τ } t registry,
        (x.number = y.number → x.group.fields = y.group.fields) ∧
          ∀ (i j : Nat) (f g : PlacedField), x.group.fields[i]? = some f →
            y.group.fields[j]? = some g →
              (f.controlId = g.controlId ↔ x.number = y.number ∧ i = j)) ∧
    ∀ s : Session, s.tree = (FormTree.build { layout with step := τ } t registry).1 →
      ∀ x ∈ FormTree.parts { layout with step := σ } t registry, x.source.shownIn τ = false →
        ∀ f ∈ x.group.fields,
          (∀ document, s.prepareSave = .ok document →
            Table.get? f.controlId document = Table.get? f.controlId s.stored) ∧
          ∀ next, Table.get? f.controlId (s.setStep next).stored =
            Table.get? f.controlId s.stored := by
  refine ⟨fun x hx y hy => hσ.controlId_eq_iff hτ hx hy, fun s tree x hx absent f hf => ?_⟩
  have kept : Table.get? f.controlId s.mergedDocument = Table.get? f.controlId s.stored := by
    refine Session.get?_mergedDocument_of_ne fun g hg _ same => ?_
    rw [tree] at hg
    obtain ⟨y, hy, mem⟩ := exists_part_of_field hg
    obtain ⟨x', hx', -, source, fields⟩ := hσ.exists_part hx
    obtain ⟨y', hy', -, source', fields'⟩ := hτ.exists_part hy
    obtain rfl := eq_of_controlId hx' hy' (fields ▸ hf) (fields' ▸ mem) same.symm
    have shows := shownIn_of_mem_parts hy
    rw [← source', source] at shows
    exact absurd (absent.symm.trans shows) Bool.false_ne_true
  refine ⟨fun document accepted => ?_, fun next => ?_⟩
  · obtain ⟨-, rfl⟩ := Session.prepareSave_eq_ok_iff.1 accepted
    exact kept
  · rw [Session.setStep, Session.rebuildFromStored, Session.rebuild, Session.stored_settle]
    exact kept

def oneField (title step : String) (repetition : Option RepeatSpec) (id : String) : Section where
  title := title
  order := none
  baseKey := none
  repetition := repetition
  fields := [⟨id, .text, id, false, none, none, [], ⟨.always, none, .null⟩, none, .null, true, none, none,
    none, []⟩]
  subsections := []
  conditions := []
  visibility := ⟨.always, none, .null⟩
  isEnabled := true
  step := some step
  extra := []

/-- Contacts, a call and a visit in one step, the call and the visit with a note each, and a remark in another
step. -/
def intakeThenReview : Template :=
  ⟨none, [oneField "Contacts" "intake" (some ⟨true, none, none, some 2, none, []⟩) "name",
    oneField "Call" "intake" none "note", oneField "Visit" "intake" none "note",
    oneField "Review" "review" none "remark"], [], []⟩

def visited : Session :=
  (Session.start "" {} intakeThenReview).loadDocument (some "\x7b\"note__2\":\"seen\"\x7d")

theorem selfContained_intakeThenReview : ∀ step ∈ [none, some "intake", some "review"],
    intakeThenReview.SelfContained ⟨none, visited.mergedDocument, 99⟩ visited.registry step := by
  intro step listed
  apply selfContained_of_asked
  · revert step
    decide +kernel
  · revert step
    decide +kernel

/-- The note of the visit gives way to that of the call. It has its name whether or not the review is shown,
and the review is saved without changing it. -/
theorem controlIds_of_selfContained_intakeThenReview :
    let document := visited.mergedDocument
    let registry := visited.registry
    let review := visited.setStep (some "review")
    intakeThenReview.SelfContained ⟨none, document, 99⟩ registry (some "intake") ∧
    intakeThenReview.SelfContained ⟨none, document, 99⟩ registry none ∧
    intakeThenReview.SelfContained ⟨none, document, 99⟩ registry (some "review") ∧
    (∃ x ∈ FormTree.parts ⟨some "intake", document, 99⟩ intakeThenReview registry,
      x.number = 2 ∧ x.group.fields.map (·.controlId) = ["note__2"]) ∧
    (∀ x ∈ FormTree.parts ⟨some "intake", document, 99⟩ intakeThenReview registry,
      ∀ y ∈ FormTree.parts ⟨none, document, 99⟩ intakeThenReview registry,
        x.number = y.number → x.group.fields = y.group.fields) ∧
    (Table.get? "note__2" review.stored).bind Json.text? = some "seen" ∧
    ∃ saved, review.prepareSave = .ok saved ∧
      Table.get? "note__2" saved = Table.get? "note__2" review.stored := by
  have all := selfContained_intakeThenReview none (by simp)
  have intake := selfContained_intakeThenReview (some "intake") (by simp)
  have review := selfContained_intakeThenReview (some "review") (by simp)
  obtain ⟨x, hx, number, named, absent⟩ :
      ∃ x ∈ FormTree.parts ⟨some "intake", visited.mergedDocument, 99⟩ intakeThenReview visited.registry,
        x.number = 2 ∧ x.group.fields.map (·.controlId) = ["note__2"] ∧
          x.source.shownIn (some "review") = false := by
    decide +kernel
  have template : visited.template = intakeThenReview := by
    rw [visited, Session.loadDocument, Session.rebuildFromStored, Session.template_rebuild, Session.start,
      Session.rebuildFromStored, Session.template_rebuild]
  have fallback : visited.config.repeatFallbackMax = 99 := by decide +kernel
  have tree := Session.tree_setStep visited (some "review")
  rw [template, fallback] at tree
  have accepted : (visited.setStep (some "review")).prepareSave =
      .ok (visited.setStep (some "review")).mergedDocument :=
    Session.prepareSave_eq_ok_iff.2 ⟨by decide +kernel, rfl⟩
  obtain ⟨f, hf, id⟩ : ∃ f ∈ x.group.fields, f.controlId = "note__2" :=
    List.mem_map.1 (named ▸ List.mem_singleton.2 rfl)
  have kept := ((controlIds_of_selfContained intake review).2 _ tree x hx absent f hf).1 _ accepted
  rw [id] at kept
  exact ⟨intake, all, review, ⟨x, hx, number, named⟩,
    fun x hx y hy => ((controlIds_of_selfContained intake all).1 x hx y hy).1, by decide +kernel,
    _, accepted, kept⟩

def twoNotes : Template :=
  ⟨none, [oneField "Intake" "intake" none "note", oneField "Review" "review" none "note"], [], []⟩

/-- A note is written in one step and then in the other. -/
def writtenTwice : Session :=
  ((Session.start "" {} twoNotes).setStep (some "intake")).runAll
    [.setValue "note" (.str "called"), .setStep (some "review"), .setValue "note" (.str "done")]

/-- The second note has another identifier where the first one is not shown: it has the first one's, and is
stored in its place. -/
theorem controlIds_of_twoNotes :
    (∃ x ∈ FormTree.parts ⟨none, [], 5⟩ twoNotes .empty,
      ∃ y ∈ FormTree.parts ⟨some "review", [], 5⟩ twoNotes .empty, x.number = y.number ∧
        x.group.fields.map (·.controlId) = ["note__2"] ∧
        y.group.fields.map (·.controlId) = ["note"]) ∧
    (∃ x ∈ FormTree.parts ⟨some "intake", [], 5⟩ twoNotes .empty, x.number = 0 ∧
      x.group.fields.map (·.controlId) = ["note"]) ∧
    (Table.get? "note" writtenTwice.stored).bind Json.text? = some "called" ∧
    writtenTwice.violations = [] ∧
    (Table.get? "note" writtenTwice.mergedDocument).bind Json.text? = some "done" := by
  decide +kernel

end Template

end Formwork
