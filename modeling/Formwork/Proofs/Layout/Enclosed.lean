import Formwork.Proofs.Layout.Instances
import Formwork.Proofs.Removal.Slots
import Formwork.Proofs.Removal.Trees

/-!
# What a name says of its place

What is in a form is in an instance of a repeated group or outside of the group. If no name outside of the
group reads as one inside it, a name that reads so is that of something in an instance, and no such name reads
as one beyond the instances that there are.
-/
namespace Formwork

theorem Slot.ofName?_self (key : String) : ofName? (key ++ "_") key = none :=
  ofName?_of_length_le (by simp)

theorem Slot.ne_of_ofName? {key name : String} {s : Slot} (found : ofName? (key ++ "_") name = some s) :
    name ≠ key := by
  rintro rfl
  rw [ofName?_self] at found
  cases found

/-- A name written for a slot reads as none that is later. -/
theorem Slot.index_le_of_ofName?_name {stem rest : String} {n : Nat} {s : Slot}
    (found : ofName? stem (name stem ⟨n, rest⟩) = some s) : s.index ≤ n := by
  by_cases small : n < indexLimit
  · rw [ofName?_name stem (s := ⟨n, rest⟩) small] at found
    exact (congrArg Slot.index (Option.some.inj found)).ge
  · exact (index_lt_of_ofName? found).le.trans (Nat.le_of_not_lt small)

/-- The instance belongs to a group among the ones given that is registered under `key`. -/
def GroupInstance.Under (key : String) (groups : List Group) (i : GroupInstance) : Prop :=
  ∃ g ∈ groups, g.repeatKey = some key ∧ i ∈ g.instances

theorem GroupInstance.Under.mono {key : String} {groups more : List Group} {i : GroupInstance}
    (h : i.Under key groups) (subset : groups ⊆ more) : i.Under key more := by
  obtain ⟨g, hg, here⟩ := h
  exact ⟨g, subset hg, here⟩

theorem GroupInstance.exists_of_mem_listFields {l : List GroupInstance} {f : PlacedField}
    (hf : f ∈ listFields l) : ∃ i ∈ l, f ∈ i.allFields := by
  induction l with
  | nil => exact absurd hf List.not_mem_nil
  | cons first l ih =>
    rw [listFields_cons] at hf
    rcases List.mem_append.1 hf with hf | hf
    · exact ⟨first, List.mem_cons_self, hf⟩
    · obtain ⟨i, hi, within⟩ := ih hf
      exact ⟨i, List.mem_cons_of_mem _ hi, within⟩

theorem GroupInstance.exists_of_mem_listGroups {l : List GroupInstance} {g : Group}
    (hg : g ∈ listGroups l) : ∃ i ∈ l, g ∈ Group.listGroups i.children := by
  induction l with
  | nil => exact absurd hg List.not_mem_nil
  | cons first l ih =>
    obtain ⟨index, label, own, children⟩ := first
    rw [listGroups] at hg
    rcases List.mem_append.1 hg with hg | hg
    · exact ⟨_, List.mem_cons_self, hg⟩
    · obtain ⟨i, hi, within⟩ := ih hg
      exact ⟨i, List.mem_cons_of_mem _ hi, within⟩

theorem GroupInstance.listGroups_subset_of_mem {l : List GroupInstance} {i : GroupInstance} (hi : i ∈ l) :
    Group.listGroups i.children ⊆ listGroups l := by
  induction l with
  | nil => exact absurd hi List.not_mem_nil
  | cons first l ih =>
    obtain ⟨index, label, own, children⟩ := first
    rw [listGroups]
    intro g hg
    rcases List.mem_cons.1 hi with rfl | hi
    · exact List.mem_append_left _ hg
    · exact List.mem_append_right _ (ih hi hg)

mutual

theorem Group.withGroupsBelow_subset : ∀ g : Group, ∀ h ∈ g.withGroupsBelow,
    h.withGroupsBelow ⊆ g.withGroupsBelow
  | ⟨_, _, _, _, _, _, _, instances⟩, h, hh => by
    rw [Group.withGroupsBelow] at hh ⊢
    rcases List.mem_cons.1 hh with rfl | hh
    · rw [Group.withGroupsBelow]
      exact List.Subset.refl _
    · exact fun k hk => List.mem_cons_of_mem _ (GroupInstance.withGroupsBelow_subset_list instances h hh hk)

theorem GroupInstance.withGroupsBelow_subset_list : ∀ l : List GroupInstance,
    ∀ h ∈ GroupInstance.listGroups l, h.withGroupsBelow ⊆ GroupInstance.listGroups l
  | [], _, hh => absurd hh List.not_mem_nil
  | ⟨_, _, _, children⟩ :: rest, h, hh => by
    rw [GroupInstance.listGroups] at hh ⊢
    intro k hk
    rcases List.mem_append.1 hh with hh | hh
    · exact List.mem_append_left _ (Group.withGroupsBelow_subset_list children h hh hk)
    · exact List.mem_append_right _ (GroupInstance.withGroupsBelow_subset_list rest h hh hk)

theorem Group.withGroupsBelow_subset_list : ∀ l : List Group,
    ∀ h ∈ Group.listGroups l, h.withGroupsBelow ⊆ Group.listGroups l
  | [], _, hh => absurd hh List.not_mem_nil
  | g :: rest, h, hh => by
    rw [Group.listGroups] at hh ⊢
    intro k hk
    rcases List.mem_append.1 hh with hh | hh
    · exact List.mem_append_left _ (Group.withGroupsBelow_subset g h hh hk)
    · exact List.mem_append_right _ (Group.withGroupsBelow_subset_list rest h hh hk)

end

/-- What is below one of the groups is below the groups. -/
theorem Group.withGroupsBelow_subset_of_mem {groups : List Group} {g : Group} (hg : g ∈ groups) :
    g.withGroupsBelow ⊆ Group.listGroups groups := by
  induction groups with
  | nil => exact absurd hg List.not_mem_nil
  | cons first groups ih =>
    rw [Group.listGroups]
    intro k hk
    rcases List.mem_cons.1 hg with rfl | hg
    · exact List.mem_append_left _ hk
    · exact List.mem_append_right _ (ih hg hk)

theorem Group.mem_withGroupsBelow_self (g : Group) : g ∈ g.withGroupsBelow := by
  cases g
  exact List.mem_cons_self

theorem Group.listGroups_subset_withGroupsBelow {g : Group} {i : GroupInstance} (hi : i ∈ g.instances) :
    Group.listGroups i.children ⊆ g.withGroupsBelow := by
  cases g
  exact fun k hk => List.mem_cons_of_mem _ (GroupInstance.listGroups_subset_of_mem hi hk)

/-- The groups in an instance of a group of the tree are in the tree. -/
theorem FormTree.listGroups_subset_allGroups {t : FormTree} {g : Group} (hg : g ∈ t.allGroups)
    {i : GroupInstance} (hi : i ∈ g.instances) : Group.listGroups i.children ⊆ t.allGroups :=
  fun _ hk => Group.withGroupsBelow_subset_list t.groups g hg (Group.listGroups_subset_withGroupsBelow hi hk)

section

variable (key : String)

mutual

/-- A field is outside of the group or in an instance of it. -/
theorem Group.mem_fieldsOutside_or : ∀ g : Group, ∀ f ∈ g.fields, f ∈ Group.fieldsOutside key g ∨
    ∃ i : GroupInstance, i.Under key g.withGroupsBelow ∧ f ∈ i.allFields
  | ⟨own, title, kind, enabled, conditions, scope, repeatKey, instances⟩, f, hf => by
    rw [Group.fields] at hf
    rw [Group.fieldsOutside, Group.withGroupsBelow]
    by_cases self : repeatKey = some key
    · obtain ⟨i, hi, within⟩ := GroupInstance.exists_of_mem_listFields hf
      exact .inr ⟨i, ⟨_, List.mem_cons_self, self, hi⟩, within⟩
    · rw [if_neg self]
      exact (GroupInstance.mem_listFieldsOutside_or instances f hf).imp_right
        fun ⟨i, under, within⟩ => ⟨i, under.mono (List.subset_cons_self _ _), within⟩

theorem GroupInstance.mem_listFieldsOutside_or : ∀ l : List GroupInstance,
    ∀ f ∈ GroupInstance.listFields l, f ∈ GroupInstance.listFieldsOutside key l ∨
      ∃ i : GroupInstance, i.Under key (GroupInstance.listGroups l) ∧ f ∈ i.allFields
  | [], _, hf => absurd hf List.not_mem_nil
  | ⟨_, _, own, children⟩ :: rest, f, hf => by
    rw [GroupInstance.listFields] at hf
    rw [GroupInstance.listFieldsOutside, GroupInstance.listGroups]
    rcases List.mem_append.1 hf with hf | hf
    · rcases List.mem_append.1 hf with hf | hf
      · exact .inl (List.mem_append_left _ (List.mem_append_left _ hf))
      · exact (Group.mem_listFieldsOutside_or children f hf).imp
          (fun out => List.mem_append_left _ (List.mem_append_right _ out))
          fun ⟨i, under, within⟩ => ⟨i, under.mono (List.subset_append_left _ _), within⟩
    · exact (GroupInstance.mem_listFieldsOutside_or rest f hf).imp (List.mem_append_right _)
        fun ⟨i, under, within⟩ => ⟨i, under.mono (List.subset_append_right _ _), within⟩

theorem Group.mem_listFieldsOutside_or : ∀ l : List Group, ∀ f ∈ Group.listFields l,
    f ∈ Group.listFieldsOutside key l ∨
      ∃ i : GroupInstance, i.Under key (Group.listGroups l) ∧ f ∈ i.allFields
  | [], _, hf => absurd hf List.not_mem_nil
  | g :: rest, f, hf => by
    rw [Group.listFields] at hf
    rw [Group.listFieldsOutside, Group.listGroups]
    rcases List.mem_append.1 hf with hf | hf
    · exact (Group.mem_fieldsOutside_or g f hf).imp (List.mem_append_left _)
        fun ⟨i, under, within⟩ => ⟨i, under.mono (List.subset_append_left _ _), within⟩
    · exact (Group.mem_listFieldsOutside_or rest f hf).imp (List.mem_append_right _)
        fun ⟨i, under, within⟩ => ⟨i, under.mono (List.subset_append_right _ _), within⟩

end

mutual

/-- A group is outside of the one registered under `key`, or it is that one, or it is in an instance of it. -/
theorem Group.mem_groupsOutside_or : ∀ g : Group, ∀ h ∈ g.withGroupsBelow,
    h ∈ Group.groupsOutside key g ∨ h.repeatKey = some key ∨
      ∃ i : GroupInstance, i.Under key g.withGroupsBelow ∧ h ∈ Group.listGroups i.children
  | ⟨own, title, kind, enabled, conditions, scope, repeatKey, instances⟩, h, hh => by
    rw [Group.withGroupsBelow] at hh
    rw [Group.groupsOutside, Group.withGroupsBelow]
    by_cases self : repeatKey = some key
    · rcases List.mem_cons.1 hh with rfl | hh
      · exact .inr (.inl self)
      · obtain ⟨i, hi, within⟩ := GroupInstance.exists_of_mem_listGroups hh
        exact .inr (.inr ⟨i, ⟨_, List.mem_cons_self, self, hi⟩, within⟩)
    · rw [if_neg self]
      rcases List.mem_cons.1 hh with rfl | hh
      · exact .inl List.mem_cons_self
      · exact (GroupInstance.mem_listGroupsOutside_or instances h hh).imp (List.mem_cons_of_mem _)
          fun inside => inside.imp_right fun ⟨i, under, within⟩ =>
            ⟨i, under.mono (List.subset_cons_self _ _), within⟩

theorem GroupInstance.mem_listGroupsOutside_or : ∀ l : List GroupInstance,
    ∀ h ∈ GroupInstance.listGroups l,
      h ∈ GroupInstance.listGroupsOutside key l ∨ h.repeatKey = some key ∨
        ∃ i : GroupInstance, i.Under key (GroupInstance.listGroups l) ∧ h ∈ Group.listGroups i.children
  | [], _, hh => absurd hh List.not_mem_nil
  | ⟨_, _, _, children⟩ :: rest, h, hh => by
    rw [GroupInstance.listGroups] at hh ⊢
    rw [GroupInstance.listGroupsOutside]
    rcases List.mem_append.1 hh with hh | hh
    · exact (Group.mem_listGroupsOutside_or children h hh).imp (List.mem_append_left _)
        fun inside => inside.imp_right fun ⟨i, under, within⟩ =>
          ⟨i, under.mono (List.subset_append_left _ _), within⟩
    · exact (GroupInstance.mem_listGroupsOutside_or rest h hh).imp (List.mem_append_right _)
        fun inside => inside.imp_right fun ⟨i, under, within⟩ =>
          ⟨i, under.mono (List.subset_append_right _ _), within⟩

theorem Group.mem_listGroupsOutside_or : ∀ l : List Group, ∀ h ∈ Group.listGroups l,
    h ∈ Group.listGroupsOutside key l ∨ h.repeatKey = some key ∨
      ∃ i : GroupInstance, i.Under key (Group.listGroups l) ∧ h ∈ Group.listGroups i.children
  | [], _, hh => absurd hh List.not_mem_nil
  | g :: rest, h, hh => by
    rw [Group.listGroups] at hh ⊢
    rw [Group.listGroupsOutside]
    rcases List.mem_append.1 hh with hh | hh
    · exact (Group.mem_groupsOutside_or g h hh).imp (List.mem_append_left _)
        fun inside => inside.imp_right fun ⟨i, under, within⟩ =>
          ⟨i, under.mono (List.subset_append_left _ _), within⟩
    · exact (Group.mem_listGroupsOutside_or rest h hh).imp (List.mem_append_right _)
        fun inside => inside.imp_right fun ⟨i, under, within⟩ =>
          ⟨i, under.mono (List.subset_append_right _ _), within⟩

end

end

namespace Blueprint

open Progress

variable {layout : Layout} {scope : Scope} {subsections : List Blueprint}

theorem opensGroups_instances {key : String} (caption : String) (fields : List Field) {p : Progress}
    (h : p.Distinct) (indices : List Nat) :
    ∀ i ∈ (threaded (layOutInstance layout scope key caption fields subsections) p indices).1,
      ∀ n, i.index = some n →
        ∀ g ∈ Group.listGroups i.children, ∃ rest, g.key = Slot.name (key ++ "_") ⟨n, rest⟩ := by
  induction indices generalizing p with
  | nil => exact fun i hi => absurd hi List.not_mem_nil
  | cons index indices ih =>
    have body := layOutBody_grown layout (instanceScope scope key index) fields subsections h
    intro i hi n number g hg
    rcases List.mem_cons.1 hi with rfl | hi
    · obtain rfl := Option.some.inj number
      obtain ⟨rest, named⟩ := body.openGroups g hg
      refine ⟨rest, ?_⟩
      rw [named, opening_instanceScope]
      rfl
    · exact ih body.distinct i hi n number g hg

end Blueprint

/-- The groups in each instance of a group are named by it. -/
theorem Layout.Makes.opensGroups {layout : Layout} {g : Group} (h : layout.Makes g) {key : String}
    (repeats : g.repeatKey = some key) {i : GroupInstance} (hi : i ∈ g.instances) {n : Nat}
    (number : i.index = some n) {inner : Group} (inside : inner ∈ Group.listGroups i.children) :
    ∃ rest, inner.key = Slot.name (key ++ "_") ⟨n, rest⟩ := by
  obtain ⟨kind, scope, ⟨s, fields, subsections⟩, p, distinct, rfl⟩ := h
  cases hs : s.repeats? with
  | none =>
    rw [Blueprint.layOut_of_plain layout kind scope p fields subsections hs] at repeats
    cases repeats
  | some spec =>
    rw [Blueprint.layOut_of_settled layout kind scope p fields subsections hs] at repeats hi
    obtain rfl := Option.some.inj repeats
    exact Blueprint.opensGroups_instances (s.instanceLabel spec) fields
      (Blueprint.distinct_settled layout kind scope s spec distinct) _ i hi n number inner inside

/-- No name outside of the group reads as one inside it. -/
structure FormTree.Apart (key : String) (t : FormTree) : Prop where
  controls : ∀ f ∈ t.fieldsOutside key, Slot.ofName? (key ++ "_") f.controlId = none
  groups : ∀ g ∈ t.groupsOutside key, Slot.ofName? (key ++ "_") g.key = none

instance (key : String) (t : FormTree) : Decidable (t.Apart key) :=
  decidable_of_iff
    ((∀ f ∈ t.fieldsOutside key, Slot.ofName? (key ++ "_") f.controlId = none) ∧
      ∀ g ∈ t.groupsOutside key, Slot.ofName? (key ++ "_") g.key = none)
    ⟨fun h => ⟨h.1, h.2⟩, fun h => ⟨h.controls, h.groups⟩⟩

namespace FormTree

variable {layout : Layout} {t : Template} {registry final : Registry} {tree : FormTree} {key : String}

/-- The instances of a group are numbered up to its count. -/
theorem index_of_build (built : build layout t registry = (tree, final)) {i : GroupInstance}
    (under : i.Under key tree.allGroups) :
    ∃ c n, final.count? key = some c ∧ i.index = some n ∧ n ≤ c := by
  obtain ⟨g, hg, repeats, hi⟩ := under
  obtain ⟨q, known, grown⟩ := build_grown layout t registry
  rw [built] at known grown
  obtain ⟨-, count, -⟩ := grown.counted g hg key repeats
  have number : i.index ∈ g.instances.map GroupInstance.index := List.mem_map_of_mem hi
  rw [(makes_of_build built hg).numbers key repeats] at number
  obtain ⟨n, range, number⟩ := List.mem_map.1 number
  refine ⟨_, n, (congrArg (Registry.count? key) known).trans count, number.symm, ?_⟩
  have := List.mem_range'_1.1 range
  omega

variable (apart : tree.Apart key) (built : build layout t registry = (tree, final))

include apart built

/-- No control reads as one beyond the instances that there are. -/
theorem index_le_of_field {f : PlacedField} (hf : f ∈ tree.fields) {s : Slot}
    (found : Slot.ofName? (key ++ "_") f.controlId = some s) :
    ∃ c, final.count? key = some c ∧ s.index ≤ c := by
  rcases Group.mem_listFieldsOutside_or key tree.groups f hf with outside | ⟨i, under, within⟩
  · rw [apart.controls f outside] at found
    cases found
  · obtain ⟨c, n, count, number, last⟩ := index_of_build built under
    obtain ⟨g, hg, repeats, hi⟩ := under
    obtain ⟨rest, named⟩ := (makes_of_build built hg).opens key repeats i hi n number f within
    rw [named] at found
    exact ⟨c, count, (Slot.index_le_of_ofName?_name found).trans last⟩

/-- No group reads as one beyond the instances that there are. -/
theorem index_le_of_group {g : Group} (hg : g ∈ tree.allGroups) {s : Slot}
    (found : Slot.ofName? (key ++ "_") g.key = some s) :
    ∃ c, final.count? key = some c ∧ s.index ≤ c := by
  obtain ⟨q, -, grown⟩ := build_grown layout t registry
  rw [built] at grown
  rcases Group.mem_listGroupsOutside_or key tree.groups g hg with outside | self | ⟨i, under, within⟩
  · rw [apart.groups g outside] at found
    cases found
  · obtain ⟨rfl, -⟩ := grown.counted g hg key self
    rw [Slot.ofName?_of_length_le (by simp)] at found
    cases found
  · obtain ⟨c, n, count, number, last⟩ := index_of_build built under
    obtain ⟨outer, houter, repeats, hi⟩ := under
    obtain ⟨rest, named⟩ := (makes_of_build built houter).opensGroups repeats hi number within
    rw [named] at found
    exact ⟨c, count, (Slot.index_le_of_ofName?_name found).trans last⟩

end FormTree

end Formwork
