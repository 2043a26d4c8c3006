import Formwork.Proofs.Layout.Expansion
import Formwork.Proofs.Layout.Frames
import Formwork.Proofs.Removal

/-!
# The tree of a template

The tree of a template shows every section of the step, and everything in it, once. What is registered about a
repeated group tells what is in each of its instances: nothing that is shown in one is missed when the
instances are saved, and nothing is looked for that is not there.
-/
namespace Formwork

theorem Section.shownIn_iff (active : Option String) (s : Section) :
    s.shownIn active = true ↔ active = none ∨ s.step = none ∨ s.step = active := by
  unfold shownIn
  cases active <;> cases s.step <;> simp [eq_comm]

/-! ## The ids in an instance -/

mutual

/-- The ids of the fields in the group, unless it repeats. -/
def Group.plainIds : Group → List String
  | ⟨_, _, _, _, _, _, some _, _⟩ => []
  | ⟨_, _, _, _, _, _, none, instances⟩ => GroupInstance.listPlainIds instances

def GroupInstance.plainIds : GroupInstance → List String
  | ⟨_, _, own, children⟩ => own.map (·.field.id) ++ Group.listPlainIds children

def GroupInstance.listPlainIds : List GroupInstance → List String
  | [] => []
  | i :: rest => GroupInstance.plainIds i ++ GroupInstance.listPlainIds rest

def Group.listPlainIds : List Group → List String
  | [] => []
  | g :: rest => Group.plainIds g ++ Group.listPlainIds rest

end

theorem Section.repeatedFieldIds_eq (s : Section) :
    s.repeatedFieldIds = s.fields.map Field.id ++ listRepeatedFieldIds s.subsections := by
  cases s
  rw [repeatedFieldIds]

theorem Section.listRepeatedFieldIds_eq_flatMap (sections : List Section) :
    listRepeatedFieldIds sections =
      sections.flatMap fun s => if s.repeats?.isSome then [] else s.repeatedFieldIds := by
  induction sections with
  | nil => rfl
  | cons s sections ih => rw [listRepeatedFieldIds, ih, List.flatMap_cons]

/-- The ids that are registered for a section are found in whatever holds its fields and its subsections. -/
theorem Section.perm_repeatedFieldIds {s : Section} {fields : List Field} {subsections : List Section}
    (arranged : Arranges Field.order s.fields fields)
    (arrangedBelow : Arranges Section.order s.subsections subsections) :
    (fields.map Field.id ++ listRepeatedFieldIds subsections).Perm s.repeatedFieldIds := by
  rw [repeatedFieldIds_eq, listRepeatedFieldIds_eq_flatMap, listRepeatedFieldIds_eq_flatMap]
  exact (arranged.perm.map Field.id).append (arrangedBelow.perm.flatMap_right _)

section

variable {layout : Layout} {outset final : Registry}

theorem Section.Expands.index_eq {s : Section} {g : Group} (h : s.Expands layout outset final g)
    (single : g.repeatKey = none) : s.repeats? = none ∧ g.instances.map (·.index) = [none] := by
  obtain ⟨-, plain, repeated, -⟩ := h
  cases hs : s.repeats? with
  | none => exact ⟨rfl, (plain hs).2⟩
  | some spec =>
    obtain ⟨registered, -⟩ := repeated spec hs
    rw [single] at registered
    cases registered

theorem Section.Expands.isSome_repeats? {s : Section} {g : Group} (h : s.Expands layout outset final g)
    {key : String} (registered : g.repeatKey = some key) : s.repeats?.isSome := by
  obtain ⟨-, plain, -⟩ := h
  cases hs : s.repeats? with
  | none =>
    rw [(plain hs).1] at registered
    cases registered
  | some spec => rfl

mutual

/-- The group of a section that does not repeat has the ids of the section. -/
theorem Group.perm_plainIds : ∀ (g : Group) {s : Section}, s.Expands layout outset final g →
    g.plainIds.Perm (if s.repeats?.isSome then [] else s.repeatedFieldIds)
  | ⟨_, _, _, _, _, _, some _, _⟩, s, h => by
    rw [if_pos (h.isSome_repeats? rfl)]
    exact .refl _
  | ⟨_, _, _, _, _, _, none, []⟩, _, h => absurd (h.index_eq rfl).2 (List.cons_ne_nil _ _).symm
  | ⟨_, _, _, _, _, _, none, [i]⟩, s, h => by
    rw [(h.index_eq rfl).1]
    obtain ⟨-, -, -, arranged, arrangedBelow, carried, below⟩ := h
    have here : i ∈ [i] := List.mem_singleton_self i
    rw [Group.plainIds, GroupInstance.listPlainIds, GroupInstance.listPlainIds, List.append_nil]
    exact (GroupInstance.perm_plainIds i (carried i here) (below i here)).trans
      (Section.perm_repeatedFieldIds arranged arrangedBelow)
  | ⟨_, _, _, _, _, _, none, _ :: _ :: _⟩, _, h => by
    have single := congrArg List.length (h.index_eq rfl).2
    simp at single

theorem GroupInstance.perm_plainIds : ∀ (i : GroupInstance) {fields : List Field} {subsections : List Section},
    i.fields.map PlacedField.field = fields →
    List.Forall₂ (Section.Expands layout outset final) subsections i.children →
    i.plainIds.Perm (fields.map Field.id ++ Section.listRepeatedFieldIds subsections)
  | ⟨_, _, own, children⟩, _, _, rfl, below => by
    rw [GroupInstance.plainIds, List.map_map]
    exact .append (.refl _) (Group.perm_listPlainIds children below)

theorem Group.perm_listPlainIds : ∀ (l : List Group) {sections : List Section},
    List.Forall₂ (Section.Expands layout outset final) sections l →
    (Group.listPlainIds l).Perm (Section.listRepeatedFieldIds sections)
  | [], _, .nil => .refl _
  | g :: rest, _, .cons first others => by
    rw [Group.listPlainIds, Section.listRepeatedFieldIds]
    exact (Group.perm_plainIds g first).append (Group.perm_listPlainIds rest others)

end

/-- Each instance of a group has the ids of the section. -/
theorem Section.Expands.perm_plainIds {s : Section} {g : Group} (h : s.Expands layout outset final g)
    {i : GroupInstance} (hi : i ∈ g.instances) : i.plainIds.Perm s.repeatedFieldIds := by
  obtain ⟨-, -, -, arranged, arrangedBelow, carried, below⟩ := h
  exact (i.perm_plainIds (carried i hi) (below i hi)).trans (perm_repeatedFieldIds arranged arrangedBelow)

/-- The entry of a group that repeats has the ids of its section. -/
theorem Section.Expands.exists_entry {s : Section} {g : Group} (h : s.Expands layout outset final g)
    {key : String} (registered : g.repeatKey = some key) :
    ∃ e, final.entry? key = some e ∧ e.fieldIds = s.repeatedFieldIds := by
  obtain ⟨spec, hs⟩ := Option.isSome_iff_exists.1 (h.isSome_repeats? registered)
  obtain ⟨-, -, repeated, -⟩ := h
  obtain ⟨same, entry, -⟩ := repeated spec hs
  obtain rfl := Option.some.inj (same.symm.trans registered)
  exact ⟨_, entry, rfl⟩

end

/-! ## Trees -/

/-- What is on the right has something on the left. -/
theorem exists_of_forall₂_right {α β : Type} {R : α → β → Prop} {l : List α} {m : List β}
    (h : List.Forall₂ R l m) {b : β} (hb : b ∈ m) : ∃ a, R a b := by
  induction h with
  | nil => exact absurd hb List.not_mem_nil
  | cons first _ ih =>
    rcases List.mem_cons.1 hb with rfl | hb
    · exact ⟨_, first⟩
    · exact ih hb

namespace FormTree

/-- The groups at the top expand the sections that the step shows, in declared order. -/
theorem expands_groups (layout : Layout) (t : Template) (registry : Registry) :
    ∃ sections, Arranges Section.order (t.sections.filter (·.shownIn layout.step)) sections ∧
      List.Forall₂ (Section.Expands layout registry (build layout t registry).2) sections
        (build layout t registry).1.groups := by
  refine ⟨_, arranges_inDeclaredOrder Section.order _, ?_⟩
  have blueprints : t.blueprints layout.step =
      (inDeclaredOrder Section.order (t.sections.filter (·.shownIn layout.step))).map Blueprint.ofSection := by
    rw [Template.blueprints, Template.ofSections_eq_map, map_inDeclaredOrder Template.order_ofSection]
  rw [build, blueprints]
  exact Blueprint.expands_layOutSections layout _ ⟨List.nodup_nil, List.nodup_nil⟩ (fun _ _ => rfl)
    (fun _ _ => ⟨rfl, rfl⟩)

/-- Every group of the tree expands a section. -/
theorem exists_expands (layout : Layout) (t : Template) (registry : Registry) {g : Group}
    (hg : g ∈ (build layout t registry).1.allGroups) :
    ∃ s : Section, s.Expands layout registry (build layout t registry).2 g := by
  obtain ⟨sections, -, top⟩ := expands_groups layout t registry
  refine forall_allGroups (P := fun g => ∃ s : Section, s.Expands layout registry _ g) (fun g hg => ?_)
    (fun g _ expands i hi c hc => ?_) g hg
  · exact exists_of_forall₂_right top hg
  · obtain ⟨s, -, -, -, -, -, -, below⟩ := expands
    exact exists_of_forall₂_right (below i hi) hc

/-- The tree shows the sections that are tagged with the step or with none, and everything in them once, each
list in declared order. Every group that is registered is one group of the tree, and the ids that are registered
for it are those in each of its instances. -/
theorem build_expands (layout : Layout) (t : Template) (registry : Registry) :
    (∃ sections, Arranges Section.order
        (t.sections.filter fun s => layout.step = none ∨ s.step = none ∨ s.step = layout.step) sections ∧
      List.Forall₂ (Section.Expands layout registry (build layout t registry).2) sections
        (build layout t registry).1.groups) ∧
    ∀ key e, Registry.entry? key (build layout t registry).2 = some e →
      ∃ g ∈ (build layout t registry).1.allGroups,
        (∀ g' ∈ (build layout t registry).1.allGroups, g'.repeatKey = some key ↔ g' = g) ∧
          ∀ i ∈ g.instances, i.plainIds.Perm e.fieldIds := by
  refine ⟨?_, fun key e entry => ?_⟩
  · obtain ⟨sections, arranged, expands⟩ := expands_groups layout t registry
    refine ⟨sections, ?_, expands⟩
    convert arranged using 3 with s
    rw [Bool.eq_iff_iff, decide_eq_true_iff, Section.shownIn_iff]
  · obtain ⟨g, hg, registered⟩ := exists_group_of_entry rfl entry
    refine ⟨g, hg, fun g' hg' => ⟨fun registered' => ?_, fun same => same ▸ registered⟩, fun i hi => ?_⟩
    · exact eq_of_repeatKey rfl hg' hg registered' registered
    · obtain ⟨s, expands⟩ := exists_expands layout t registry hg
      obtain ⟨e', entry', ids⟩ := expands.exists_entry registered
      obtain rfl := Option.some.inj (entry'.symm.trans entry)
      rw [ids]
      exact expands.perm_plainIds hi

def twoZeros : Section :=
  { Session.sectionOf "Zeros" none [] [] with
    fields := [{ Session.textField "plus" with order := some (.zero false) },
      { Session.textField "minus" with order := some (.zero true) }] }

/-- The two are equal as numbers and yet change places. -/
theorem fields_build_twoZeros :
    twoZeros.fields.map Field.id = ["plus", "minus"] ∧
      twoZeros.fields.map (fun f => f.order.map Binary64.signedUnits) = [some 0, some 0] ∧
      (build ⟨none, [], 5⟩ ⟨none, [twoZeros], [], []⟩ .empty).1.fields.map (·.field.id) = ["minus", "plus"] := by
  decide +kernel

end FormTree

end Formwork
