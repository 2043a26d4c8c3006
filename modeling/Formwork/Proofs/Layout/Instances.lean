import Formwork.Proofs.Layout.Records
import Formwork.Repeat.Slot.Lemmas
import Mathlib.Data.List.Nodup

/-!
# Instances of repeated groups

Every group of a form is what is laid out for a section, so that what holds of one holds of all. The
instances of a repeated group are numbered from one on, and the name of every field in an instance begins
with the stem of the group and the number of the instance, so that the instance can be told from the name.
-/
namespace Formwork

theorem Text.isDecimalDigit_of_isDigit {c : Char} (h : c.isDigit = true) :
    Text.isDecimalDigit c = true := by
  have range : 48 ≤ c.toNat ∧ c.toNat ≤ 57 := by
    simp only [Char.isDigit, Bool.and_eq_true, decide_eq_true_eq] at h
    exact h
  refine List.any_eq_true.2 ⟨(0x30, 0x39), List.mem_cons_self, ?_⟩
  simpa using range

/-- The number of a slot is scanned back from its name. -/
theorem Slot.scanIndex?_name (stem : String) {s : Slot} (h : s.index < indexLimit) :
    scanIndex? stem (name stem s) = some s.index := by
  have digits : ∀ c ∈ Text.numeral s.index, Text.isDecimalDigit c = true :=
    fun c hc => Text.isDecimalDigit_of_isDigit (Text.isDigit_of_mem_numeral hc)
  have stop : Text.isDecimalDigit '_' = false := by decide
  unfold scanIndex?
  rw [name_eq, tail?_append]
  simp only [Option.bind_eq_bind, Option.bind_some, String.toList_ofList]
  rw [takeWhile_append_of_stop digits stop, dropWhile_append_of_stop digits stop]
  exact indexOfChars?_numeral h

def GroupInstance.allFields (i : GroupInstance) : List PlacedField := i.fields ++ Group.listFields i.children

theorem GroupInstance.listFields_cons (i : GroupInstance) (l : List GroupInstance) :
    listFields (i :: l) = i.allFields ++ listFields l := by
  cases i
  rfl

theorem GroupInstance.allFields_subset_listFields {i : GroupInstance} {l : List GroupInstance}
    (hi : i ∈ l) : i.allFields ⊆ GroupInstance.listFields l := by
  induction l with
  | nil => exact absurd hi List.not_mem_nil
  | cons first l ih =>
    rw [listFields_cons]
    intro f hf
    rcases List.mem_cons.1 hi with rfl | hi
    · exact List.mem_append_left _ hf
    · exact List.mem_append_right _ (ih hi hf)

theorem Group.allFields_subset_fields {g : Group} {i : GroupInstance} (hi : i ∈ g.instances) :
    i.allFields ⊆ g.fields := by
  cases g
  exact GroupInstance.allFields_subset_listFields hi

mutual

theorem Group.fields_subset_of_withGroupsBelow :
    ∀ g : Group, ∀ h ∈ g.withGroupsBelow, h.fields ⊆ g.fields
  | ⟨_, _, _, _, _, _, _, instances⟩ => by
    intro h hh
    rcases List.mem_cons.1 hh with rfl | hh
    · exact List.Subset.refl _
    · exact GroupInstance.fields_subset_of_listGroups instances h hh

theorem GroupInstance.fields_subset_of_listGroups :
    ∀ l : List GroupInstance, ∀ h ∈ GroupInstance.listGroups l, h.fields ⊆ GroupInstance.listFields l
  | [], h, hh => absurd hh List.not_mem_nil
  | ⟨_, _, own, children⟩ :: rest, h, hh => by
    intro f hf
    rcases List.mem_append.1 hh with hh | hh
    · have below := Group.fields_subset_of_listGroups children h hh hf
      exact List.mem_append_left _ (List.mem_append_right own below)
    · exact List.mem_append_right _ (GroupInstance.fields_subset_of_listGroups rest h hh hf)

theorem Group.fields_subset_of_listGroups :
    ∀ l : List Group, ∀ h ∈ Group.listGroups l, h.fields ⊆ Group.listFields l
  | [], h, hh => absurd hh List.not_mem_nil
  | g :: rest, h, hh => by
    intro f hf
    rcases List.mem_append.1 hh with hh | hh
    · exact List.mem_append_left _ (Group.fields_subset_of_withGroupsBelow g h hh hf)
    · exact List.mem_append_right _ (Group.fields_subset_of_listGroups rest h hh hf)

end

/-- What is in an instance of a group of the tree is in the tree. -/
theorem FormTree.allFields_subset_fields {t : FormTree} {g : Group} (hg : g ∈ t.allGroups)
    {i : GroupInstance} (hi : i ∈ g.instances) : i.allFields ⊆ t.fields :=
  fun _ hf => Group.fields_subset_of_listGroups t.groups g hg (Group.allFields_subset_fields hi hf)

/-- The fields in each instance of the group are named by it. -/
def Group.Opens (g : Group) : Prop :=
  ∀ key, g.repeatKey = some key → ∀ i ∈ g.instances, ∀ n, i.index = some n →
    ∀ f ∈ i.allFields, ∃ rest, f.controlId = Slot.name (key ++ "_") ⟨n, rest⟩

/-- The instances of the group are numbered from one on. -/
def Group.Numbers (g : Group) : Prop :=
  ∀ key, g.repeatKey = some key →
    g.instances.map GroupInstance.index = (List.range' 1 g.instances.length).map some

/-- The group is what is laid out for a section somewhere. -/
def Layout.Makes (layout : Layout) (g : Group) : Prop :=
  ∃ (kind : GroupKind) (scope : Scope) (b : Blueprint) (p : Progress),
    p.Distinct ∧ g = (b.layOut layout kind scope p).1

namespace Blueprint

open Progress

variable {layout : Layout} {scope : Scope} {subsections : List Blueprint}

theorem opens_instances {key : String} (caption : String) (fields : List Field) {p : Progress}
    (h : p.Distinct) (indices : List Nat) :
    ∀ i ∈ (threaded (layOutInstance layout scope key caption fields subsections) p indices).1,
      ∀ n, i.index = some n →
        ∀ f ∈ i.allFields, ∃ rest, f.controlId = Slot.name (key ++ "_") ⟨n, rest⟩ := by
  induction indices generalizing p with
  | nil => exact fun i hi => absurd hi List.not_mem_nil
  | cons index indices ih =>
    have body := layOutBody_grown layout (instanceScope scope key index) fields subsections h
    intro i hi n number f hf
    rcases List.mem_cons.1 hi with rfl | hi
    · obtain rfl := Option.some.inj number
      obtain ⟨rest, named⟩ := body.openFields f hf
      refine ⟨rest, ?_⟩
      rw [named, opening_instanceScope]
      rfl
    · exact ih body.distinct i hi n number f hf

/-- What holds below the instances of a group, if it holds of the subsections in each of them. -/
theorem forall_below_instances {P : Group → Prop} {key : String} (caption : String) (fields : List Field)
    (below : ∀ (index : Nat) {p : Progress}, p.Distinct →
      ∀ g ∈ Group.listGroups (layOutList layout (instanceScope scope key index) p subsections).1, P g)
    {p : Progress} (h : p.Distinct) (indices : List Nat) :
    ∀ g ∈ GroupInstance.listGroups
      (threaded (layOutInstance layout scope key caption fields subsections) p indices).1, P g := by
  induction indices generalizing p with
  | nil => exact fun g hg => absurd hg List.not_mem_nil
  | cons index indices ih =>
    have placed := placeFields_grown h (instanceScope scope key index) fields
    have body := layOutBody_grown layout (instanceScope scope key index) fields subsections h
    intro g hg
    rcases List.mem_append.1 hg with hg | hg
    · exact below index placed.distinct g hg
    · exact ih body.distinct g hg

mutual

/-- Every group that is laid out with a section is made of a section itself. -/
theorem makes_layOut (layout : Layout) (kind : GroupKind) (scope : Scope) :
    ∀ (b : Blueprint) {p : Progress}, p.Distinct →
      ∀ g ∈ (layOut layout kind scope p b).1.withGroupsBelow, layout.Makes g
  | ⟨s, fields, subsections⟩, p, h => by
    intro g hg
    have made : layout.Makes (layOut layout kind scope p ⟨s, fields, subsections⟩).1 :=
      ⟨kind, scope, _, p, h, rfl⟩
    cases hs : s.repeats? with
    | none =>
      rw [layOut_of_plain layout kind scope p fields subsections hs] at hg made
      simp only [Group.withGroupsBelow, GroupInstance.listGroups, List.append_nil] at hg
      rcases List.mem_cons.1 hg with rfl | hg
      · exact made
      · have placed := placeFields_grown (h.nameGroup (candidate scope s)) scope fields
        exact makes_layOutList layout scope subsections placed.distinct g hg
    | some spec =>
      rw [layOut_of_settled layout kind scope p fields subsections hs] at hg made
      simp only [Group.withGroupsBelow] at hg
      rcases List.mem_cons.1 hg with rfl | hg
      · exact made
      · exact forall_below_instances (s.instanceLabel spec) fields
          (fun index => makes_layOutList layout (instanceScope scope _ index) subsections)
          (distinct_settled layout kind scope s spec h) _ g hg

theorem makes_layOutList (layout : Layout) (scope : Scope) :
    ∀ (l : List Blueprint) {p : Progress}, p.Distinct →
      ∀ g ∈ Group.listGroups (layOutList layout scope p l).1, layout.Makes g
  | [], p, _ => by
    rw [layOutList]
    exact fun g hg => absurd hg List.not_mem_nil
  | b :: rest, p, h => by
    rw [layOutList_cons]
    intro g hg
    rcases List.mem_append.1 hg with hg | hg
    · exact makes_layOut layout .subsection scope b h g hg
    · exact makes_layOutList layout scope rest (layOut_grown layout .subsection scope b h).distinct g hg

end

theorem makes_layOutSections (layout : Layout) {p : Progress} (h : p.Distinct) (l : List Blueprint) :
    ∀ g ∈ Group.listGroups (threaded (layOut layout .topSection []) p l).1, layout.Makes g := by
  induction l generalizing p with
  | nil => exact fun g hg => absurd hg List.not_mem_nil
  | cons b l ih =>
    intro g hg
    rcases List.mem_append.1 hg with hg | hg
    · exact makes_layOut layout .topSection [] b h g hg
    · exact ih (layOut_grown layout .topSection [] b h).distinct g hg

theorem map_index_instances (key caption : String) (fields : List Field) (p : Progress)
    (indices : List Nat) :
    (threaded (layOutInstance layout scope key caption fields subsections) p indices).1.map
      GroupInstance.index = indices.map some := by
  induction indices generalizing p with
  | nil => rfl
  | cons index indices ih => exact List.cons_eq_cons.2 ⟨rfl, ih _⟩

end Blueprint

namespace Layout

open Blueprint

variable {layout : Layout} {g : Group}

theorem Makes.opens (h : layout.Makes g) : g.Opens := by
  obtain ⟨kind, scope, ⟨s, fields, subsections⟩, p, distinct, rfl⟩ := h
  cases hs : s.repeats? with
  | none =>
    rw [layOut_of_plain layout kind scope p fields subsections hs]
    exact fun key repeats => nomatch repeats
  | some spec =>
    rw [layOut_of_settled layout kind scope p fields subsections hs]
    intro key repeats
    obtain rfl := Option.some.inj repeats
    exact opens_instances (s.instanceLabel spec) fields (distinct_settled layout kind scope s spec distinct) _

theorem Makes.numbers (h : layout.Makes g) : g.Numbers := by
  obtain ⟨kind, scope, ⟨s, fields, subsections⟩, p, -, rfl⟩ := h
  cases hs : s.repeats? with
  | none =>
    rw [layOut_of_plain layout kind scope p fields subsections hs]
    exact fun key repeats => nomatch repeats
  | some spec =>
    rw [layOut_of_settled layout kind scope p fields subsections hs]
    intro key repeats
    dsimp only
    rw [map_index_instances, length_threaded, List.length_range']

end Layout

namespace FormTree

theorem makes_build (layout : Layout) (t : Template) (registry : Registry) :
    ∀ g ∈ (build layout t registry).1.allGroups, layout.Makes g :=
  Blueprint.makes_layOutSections layout ⟨List.nodup_nil, List.nodup_nil⟩ _

variable {layout : Layout} {t : Template} {registry final : Registry} {tree : FormTree}
  (built : build layout t registry = (tree, final)) {g g' : Group} (hg : g ∈ tree.allGroups)

include built hg

theorem makes_of_build : layout.Makes g := by
  have makes := makes_build layout t registry
  rw [built] at makes
  exact makes g hg

/-- Groups that are registered under the same key are the same. -/
theorem eq_of_repeatKey (hg' : g' ∈ tree.allGroups) {key : String} (repeats : g.repeatKey = some key)
    (repeats' : g'.repeatKey = some key) : g = g' := by
  have distinct := nodup_keys_build layout t registry
  obtain ⟨q, -, grown⟩ := build_grown layout t registry
  rw [built] at distinct grown
  obtain ⟨named, -⟩ := grown.counted g hg key repeats
  obtain ⟨named', -⟩ := grown.counted g' hg' key repeats'
  exact List.inj_on_of_nodup_map distinct hg hg' (named.symm.trans named')

end FormTree

end Formwork
