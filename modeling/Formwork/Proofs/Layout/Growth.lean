import Formwork.Proofs.Layout.Naming
import Formwork.Table.Lemmas

/-!
# What laying out adds

Whatever is laid out, the names in it are added to those given before, in document order and without
repetition, and begin with the text of the scope. The registry changes at the keys of the new repeated
groups alone, and the count recorded for such a group is the number of its instances.
-/
namespace Formwork

namespace Progress

structure Distinct (p : Progress) : Prop where
  controls : p.controlIds.Nodup
  groups : p.groupKeys.Nodup

/-- The progress from `p` to `q` by laying out fields and groups, where names begin with `opening`. -/
structure Grown (opening : String) (p q : Progress) (fields : List PlacedField)
    (groups : List Group) : Prop where
  controlIds : q.controlIds = (fields.map (·.controlId)).reverse ++ p.controlIds
  groupKeys : q.groupKeys = (groups.map (·.key)).reverse ++ p.groupKeys
  distinct : q.Distinct
  openFields : ∀ f ∈ fields, ∃ rest, f.controlId = opening ++ rest
  openGroups : ∀ g ∈ groups, ∃ rest, g.key = opening ++ rest
  kept : ∀ key, (∀ g ∈ groups, g.repeatKey ≠ some key) →
    q.registry.count? key = p.registry.count? key ∧ q.registry.entry? key = p.registry.entry? key
  counted : ∀ g ∈ groups, ∀ key, g.repeatKey = some key →
    key = g.key ∧ q.registry.count? key = some g.instances.length ∧
      ∃ e, q.registry.entry? key = some e ∧ e.stem = key ++ "_"
  sorted : p.registry.counts.Ascending → q.registry.counts.Ascending

namespace Grown

variable {opening : String} {p q r : Progress} {fields fields' : List PlacedField}
  {groups groups' : List Group}

theorem refl (opening : String) (h : p.Distinct) : Grown opening p p [] [] where
  controlIds := rfl
  groupKeys := rfl
  distinct := h
  openFields := fun _ hf => absurd hf List.not_mem_nil
  openGroups := fun _ hg => absurd hg List.not_mem_nil
  kept := fun _ _ => ⟨rfl, rfl⟩
  counted := fun _ hg => absurd hg List.not_mem_nil
  sorted := id

theorem controlIds_subset (h : Grown opening p q fields groups) : p.controlIds ⊆ q.controlIds := by
  rw [h.controlIds]
  exact List.subset_append_right _ _

theorem key_mem (h : Grown opening p q fields groups) {g : Group} (hg : g ∈ groups) :
    g.key ∈ q.groupKeys := by
  rw [h.groupKeys]
  exact List.mem_append_left _ (List.mem_reverse.2 (List.mem_map_of_mem hg))

theorem key_not_mem (h : Grown opening p q fields groups) {g : Group} (hg : g ∈ groups) :
    g.key ∉ p.groupKeys := by
  have distinct := h.distinct.groups
  rw [h.groupKeys, List.nodup_append] at distinct
  intro hp
  exact distinct.2.2 g.key (List.mem_reverse.2 (List.mem_map_of_mem hg)) g.key hp rfl

theorem repeatKey_ne (h : Grown opening p q fields groups) {key : String} (named : key ∈ p.groupKeys) :
    ∀ g ∈ groups, g.repeatKey ≠ some key := by
  intro g hg repeats
  obtain ⟨rfl, -⟩ := h.counted g hg key repeats
  exact h.key_not_mem hg named

theorem trans (h : Grown opening p q fields groups) (h' : Grown opening q r fields' groups') :
    Grown opening p r (fields ++ fields') (groups ++ groups') where
  controlIds := by
    rw [h'.controlIds, h.controlIds, List.map_append, List.reverse_append, List.append_assoc]
  groupKeys := by
    rw [h'.groupKeys, h.groupKeys, List.map_append, List.reverse_append, List.append_assoc]
  distinct := h'.distinct
  openFields := fun f hf => (List.mem_append.1 hf).elim (h.openFields f) (h'.openFields f)
  openGroups := fun g hg => (List.mem_append.1 hg).elim (h.openGroups g) (h'.openGroups g)
  kept := by
    intro key absent
    obtain ⟨count, entry⟩ := h.kept key fun g hg => absent g (List.mem_append_left _ hg)
    obtain ⟨count', entry'⟩ := h'.kept key fun g hg => absent g (List.mem_append_right _ hg)
    exact ⟨count'.trans count, entry'.trans entry⟩
  counted := by
    intro g hg key hkey
    rcases List.mem_append.1 hg with hg | hg
    · obtain ⟨rfl, count, e, entry, stem⟩ := h.counted g hg key hkey
      obtain ⟨count', entry'⟩ := h'.kept g.key (h'.repeatKey_ne (h.key_mem hg))
      exact ⟨rfl, count'.trans count, e, entry'.trans entry, stem⟩
    · exact h'.counted g hg key hkey
  sorted := h'.sorted ∘ h.sorted

theorem widen {inner : String} (h : Grown inner p q fields groups)
    (begins : ∃ rest, inner = opening ++ rest) : Grown opening p q fields groups := by
  obtain ⟨rest, rfl⟩ := begins
  refine { h with openFields := fun f hf => ?_, openGroups := fun g hg => ?_ }
  · obtain ⟨more, eq⟩ := h.openFields f hf
    exact ⟨rest ++ more, by rw [eq, String.append_assoc]⟩
  · obtain ⟨more, eq⟩ := h.openGroups g hg
    exact ⟨rest ++ more, by rw [eq, String.append_assoc]⟩

/-- A group is laid out before what is in it. -/
theorem enclose {start : Progress} {g : Group} (h : Grown opening start q fields groups)
    (controlIds : start.controlIds = p.controlIds) (groupKeys : start.groupKeys = g.key :: p.groupKeys)
    (others : ∀ key, g.repeatKey ≠ some key → start.registry.count? key = p.registry.count? key ∧
      start.registry.entry? key = p.registry.entry? key)
    (opens : ∃ rest, g.key = opening ++ rest)
    (recorded : ∀ key, g.repeatKey = some key →
      key = g.key ∧ start.registry.count? key = some g.instances.length ∧
        ∃ e, start.registry.entry? key = some e ∧ e.stem = key ++ "_")
    (sorted : p.registry.counts.Ascending → start.registry.counts.Ascending) :
    Grown opening p q fields (g :: groups) where
  controlIds := by rw [h.controlIds, controlIds]
  groupKeys := by
    rw [h.groupKeys, groupKeys, List.map_cons, List.reverse_cons, List.append_assoc]
    rfl
  distinct := h.distinct
  openFields := h.openFields
  openGroups := fun g' hg => (List.mem_cons.1 hg).elim (fun same => same ▸ opens) (h.openGroups g')
  kept := by
    intro key absent
    obtain ⟨count, entry⟩ := h.kept key fun g' hg => absent g' (List.mem_cons_of_mem g hg)
    obtain ⟨count', entry'⟩ := others key (absent g List.mem_cons_self)
    exact ⟨count.trans count', entry.trans entry'⟩
  counted := by
    intro g' hg key hkey
    rcases List.mem_cons.1 hg with rfl | hg
    · obtain ⟨rfl, count, e, entry, stem⟩ := recorded key hkey
      have named : g'.key ∈ start.groupKeys := by
        rw [groupKeys]
        exact List.mem_cons_self
      obtain ⟨count', entry'⟩ := h.kept g'.key (h.repeatKey_ne named)
      exact ⟨rfl, count'.trans count, e, entry'.trans entry, stem⟩
    · exact h.counted g' hg key hkey
  sorted := h.sorted ∘ sorted

end Grown

/-- Settling a count records it under the key of the entry. -/
theorem settle_self (entry : RepeatEntry) (stored : Fields) (p : Progress) :
    (p.settle entry stored).2.registry.count? entry.key = some (p.settle entry stored).1 ∧
      (p.settle entry stored).2.registry.entry? entry.key = some entry :=
  ⟨Table.get?_insert_self .., Table.get?_insert_self ..⟩

theorem settle_of_ne {key : String} {entry : RepeatEntry} (h : key ≠ entry.key) (stored : Fields)
    (p : Progress) :
    (p.settle entry stored).2.registry.count? key = p.registry.count? key ∧
      (p.settle entry stored).2.registry.entry? key = p.registry.entry? key :=
  ⟨Table.get?_insert_of_ne h .., Table.get?_insert_of_ne h ..⟩

theorem Distinct.nameControl {p : Progress} (h : p.Distinct) (candidate : String) :
    (p.nameControl candidate).2.Distinct :=
  ⟨List.nodup_cons.2 ⟨p.controlName_not_mem candidate, h.controls⟩, h.groups⟩

theorem Distinct.nameGroup {p : Progress} (h : p.Distinct) (candidate : String) :
    (p.nameGroup candidate).2.Distinct :=
  ⟨h.controls, List.nodup_cons.2 ⟨p.groupName_not_mem candidate, h.groups⟩⟩

theorem Distinct.settle {p : Progress} (h : p.Distinct) (entry : RepeatEntry) (stored : Fields) :
    (p.settle entry stored).2.Distinct :=
  ⟨h.controls, h.groups⟩

end Progress

open Progress

theorem Scope.identifier_eq (scope : Scope) (raw : String) :
    scope.identifier raw = scope.opening ++ Identifier.ofRaw raw := by
  unfold Scope.identifier Scope.opening
  cases scope.getLast? with
  | none => rw [String.empty_append]
  | some f => rfl

theorem placeField_eq (scope : Scope) (p : Progress) (f : Field) :
    placeField scope p f =
      (⟨p.controlName (scope.identifier f.id), scope, effectiveConditions f.conditions f.visibility, f⟩,
        { p with controlIds := p.controlName (scope.identifier f.id) :: p.controlIds }) := rfl

theorem placeField_grown {p : Progress} (h : p.Distinct) (scope : Scope) (f : Field) :
    Grown scope.opening p (placeField scope p f).2 [(placeField scope p f).1] [] where
  controlIds := rfl
  groupKeys := rfl
  distinct := h.nameControl _
  openFields := by
    intro f' hf
    obtain rfl := List.mem_singleton.1 hf
    obtain ⟨rest, eq⟩ := p.controlName_eq_append (scope.identifier f.id)
    exact ⟨Identifier.ofRaw f.id ++ rest, by
      rw [← String.append_assoc, ← Scope.identifier_eq]
      exact eq⟩
  openGroups := fun _ hg => absurd hg List.not_mem_nil
  kept := fun _ _ => ⟨rfl, rfl⟩
  counted := fun _ hg => absurd hg List.not_mem_nil
  sorted := id

theorem placeFields_grown {p : Progress} (h : p.Distinct) (scope : Scope) (fields : List Field) :
    Grown scope.opening p (threaded (placeField scope) p fields).2
      (threaded (placeField scope) p fields).1 [] := by
  induction fields generalizing p with
  | nil => exact .refl _ h
  | cons f fields ih =>
    have first := placeField_grown h scope f
    exact first.trans (ih first.distinct)

namespace Blueprint

variable {layout : Layout} {scope : Scope} {subsections : List Blueprint}

/-- The identifiers inside an instance begin with those of the scope around it. -/
theorem opening_instanceScope (scope : Scope) (key : String) (index : Nat) :
    (instanceScope scope key index).opening = key ++ "_" ++ Text.ofNat index ++ "_" := by
  simp [instanceScope, Scope.opening, Frame.opening]

theorem layOutBody_grown_of {p : Progress} (h : p.Distinct) (fields : List Field)
    (below : ∀ {p : Progress}, p.Distinct → Grown scope.opening p
      (layOutList layout scope p subsections).2
      (Group.listFields (layOutList layout scope p subsections).1)
      (Group.listGroups (layOutList layout scope p subsections).1)) :
    let body := layOutBody layout scope fields subsections p
    Grown scope.opening p body.2 (body.1.1 ++ Group.listFields body.1.2)
      (Group.listGroups body.1.2) := by
  have placed := placeFields_grown h scope fields
  exact placed.trans (below placed.distinct)

/-- Laying out instances, given what laying out the subsections in one of them adds. -/
theorem layOutInstances_grown_of {key : String} (caption : String) (fields : List Field)
    (below : ∀ (index : Nat) {p : Progress}, p.Distinct →
      Grown (instanceScope scope key index).opening p
        (layOutList layout (instanceScope scope key index) p subsections).2
        (Group.listFields (layOutList layout (instanceScope scope key index) p subsections).1)
        (Group.listGroups (layOutList layout (instanceScope scope key index) p subsections).1))
    {p : Progress} (h : p.Distinct) (indices : List Nat) :
    let laid := threaded (layOutInstance layout scope key caption fields subsections) p indices
    Grown key p laid.2 (GroupInstance.listFields laid.1) (GroupInstance.listGroups laid.1) := by
  induction indices generalizing p with
  | nil => exact .refl _ h
  | cons index indices ih =>
    have body := layOutBody_grown_of h fields (below index)
    have inside : Grown key p _ _ _ := body.widen ⟨"_" ++ Text.ofNat index ++ "_", by
      rw [opening_instanceScope]
      simp only [String.append_assoc]⟩
    exact inside.trans (ih body.distinct)

theorem groupName_begins (p : Progress) (scope : Scope) (s : Section) :
    ∃ rest, p.groupName (candidate scope s) = scope.opening ++ rest := by
  obtain ⟨rest, eq⟩ := p.groupName_eq_append (candidate scope s)
  exact ⟨Identifier.ofSection s.title s.baseKey ++ rest, by rw [eq, candidate, String.append_assoc]⟩

/-- What laying out a repeated section adds: all of it begins with the key. -/
theorem layOut_grown_of_repeated (layout : Layout) (kind : GroupKind) (scope : Scope)
    {s : Section} {spec : RepeatSpec} (hs : s.repeats? = some spec) (fields : List Field)
    {p : Progress} (h : p.Distinct)
    (below : ∀ (key : String) (index : Nat) {p : Progress}, p.Distinct →
      Grown (instanceScope scope key index).opening p
        (layOutList layout (instanceScope scope key index) p subsections).2
        (Group.listFields (layOutList layout (instanceScope scope key index) p subsections).1)
        (Group.listGroups (layOutList layout (instanceScope scope key index) p subsections).1)) :
    let laid := layOut layout kind scope p ⟨s, fields, subsections⟩
    Grown (p.groupName (candidate scope s)) p laid.2 laid.1.fields laid.1.withGroupsBelow := by
  let entry := RepeatEntry.ofSection (p.groupName (candidate scope s)) kind s spec layout.fallbackMax
  have settled := (h.nameGroup (candidate scope s)).settle entry layout.stored
  have instances := layOutInstances_grown_of (s.instanceLabel spec) fields (below entry.key) settled
    (List.range' 1 ((p.nameGroup (candidate scope s)).2.settle entry layout.stored).1)
  rw [layOut_of_repeated layout kind scope p fields subsections hs]
  simp only [Group.fields, Group.withGroupsBelow]
  obtain ⟨count, registered⟩ := settle_self entry layout.stored (p.nameGroup (candidate scope s)).2
  refine instances.enclose rfl rfl (fun key hkey => ?_) ⟨"", String.append_empty.symm⟩
    (fun key hkey => ?_) (Table.ascending_insert _ _)
  · exact settle_of_ne (fun same => hkey (congrArg some same.symm)) _ _
  · obtain rfl := Option.some.inj hkey
    refine ⟨rfl, ?_, entry, registered, rfl⟩
    rw [length_threaded, List.length_range']
    exact count

mutual

/-- What laying out a section adds. -/
theorem layOut_grown (layout : Layout) (kind : GroupKind) (scope : Scope) :
    ∀ (b : Blueprint) {p : Progress}, p.Distinct →
      Grown scope.opening p (layOut layout kind scope p b).2 (layOut layout kind scope p b).1.fields
        (layOut layout kind scope p b).1.withGroupsBelow
  | ⟨s, fields, subsections⟩, p, h => by
    have begins := groupName_begins p scope s
    cases hs : s.repeats? with
    | none =>
      have body := layOutBody_grown_of (h.nameGroup (candidate scope s)) fields
        (layOutList_grown layout scope subsections)
      rw [layOut_of_plain layout kind scope p fields subsections hs]
      simp only [Group.fields, Group.withGroupsBelow, GroupInstance.listFields,
        GroupInstance.listGroups, List.append_nil]
      exact body.enclose rfl rfl (fun _ _ => ⟨rfl, rfl⟩) begins (fun _ hkey => nomatch hkey) id
    | some spec =>
      have repeated := layOut_grown_of_repeated layout kind scope hs fields h
        fun key index => layOutList_grown layout (instanceScope scope key index) subsections
      exact repeated.widen begins

/-- What laying out subsections adds. -/
theorem layOutList_grown (layout : Layout) (scope : Scope) :
    ∀ (l : List Blueprint) {p : Progress}, p.Distinct →
      Grown scope.opening p (layOutList layout scope p l).2
        (Group.listFields (layOutList layout scope p l).1)
        (Group.listGroups (layOutList layout scope p l).1)
  | [], _, h => by
    rw [layOutList]
    exact .refl _ h
  | b :: rest, _, h => by
    have first := layOut_grown layout .subsection scope b h
    rw [layOutList_cons]
    exact first.trans (layOutList_grown layout scope rest first.distinct)

end

theorem layOutBody_grown (layout : Layout) (scope : Scope) (fields : List Field)
    (subsections : List Blueprint) {p : Progress} (h : p.Distinct) :
    let body := layOutBody layout scope fields subsections p
    Grown scope.opening p body.2 (body.1.1 ++ Group.listFields body.1.2) (Group.listGroups body.1.2) :=
  layOutBody_grown_of h fields (layOutList_grown layout scope subsections)

theorem layOutInstances_grown (layout : Layout) (scope : Scope) (key caption : String)
    (fields : List Field) (subsections : List Blueprint) {p : Progress} (h : p.Distinct)
    (indices : List Nat) :
    let laid := threaded (layOutInstance layout scope key caption fields subsections) p indices
    Grown key p laid.2 (GroupInstance.listFields laid.1) (GroupInstance.listGroups laid.1) :=
  layOutInstances_grown_of caption fields
    (fun index => layOutList_grown layout (instanceScope scope key index) subsections) h indices

theorem layOutSections_grown (layout : Layout) {p : Progress} (h : p.Distinct) (l : List Blueprint) :
    let laid := threaded (layOut layout .topSection []) p l
    Grown "" p laid.2 (Group.listFields laid.1) (Group.listGroups laid.1) := by
  induction l generalizing p with
  | nil => exact .refl _ h
  | cons b l ih =>
    have first := layOut_grown layout .topSection [] b h
    exact first.trans (ih first.distinct)

end Blueprint

namespace FormTree

/-- The progress from which a tree is laid out. -/
def outset (registry : Registry) : Progress := ⟨registry.clearEntries, [], []⟩

/-- What laying out a template adds to nothing. -/
theorem build_grown (layout : Layout) (t : Template) (registry : Registry) :
    ∃ q, (build layout t registry).2 = q.registry ∧
      Grown "" (outset registry) q (build layout t registry).1.fields
        (build layout t registry).1.allGroups :=
  ⟨_, rfl, Blueprint.layOutSections_grown layout ⟨List.nodup_nil, List.nodup_nil⟩ _⟩

/-- No two fields have the same identifier. -/
theorem nodup_controlIds_build (layout : Layout) (t : Template) (registry : Registry) :
    ((build layout t registry).1.fields.map (·.controlId)).Nodup := by
  obtain ⟨q, -, grown⟩ := build_grown layout t registry
  have distinct := grown.distinct.controls
  rw [grown.controlIds, outset, List.append_nil] at distinct
  exact (List.pairwise_reverse.1 distinct).imp Ne.symm

/-- No two groups have the same key. -/
theorem nodup_keys_build (layout : Layout) (t : Template) (registry : Registry) :
    ((build layout t registry).1.allGroups.map (·.key)).Nodup := by
  obtain ⟨q, -, grown⟩ := build_grown layout t registry
  have distinct := grown.distinct.groups
  rw [grown.groupKeys, outset, List.append_nil] at distinct
  exact (List.pairwise_reverse.1 distinct).imp Ne.symm

/-- Every group that is entered is in the tree. -/
theorem exists_group_of_entry {layout : Layout} {t : Template} {registry final : Registry} {tree : FormTree}
    (built : build layout t registry = (tree, final)) {key : String} {e : RepeatEntry}
    (entry : final.entry? key = some e) : ∃ g ∈ tree.allGroups, g.repeatKey = some key := by
  obtain ⟨q, known, grown⟩ := build_grown layout t registry
  rw [built] at known grown
  refine Classical.byContradiction fun absent => ?_
  have kept := (grown.kept key fun g hg repeats => absent ⟨g, hg, repeats⟩).2
  rw [← known, entry] at kept
  cases kept

end FormTree

end Formwork
