import Formwork.Proofs.Layout.Enclosed
import Formwork.Proofs.Layout.Telling
import Formwork.Proofs.Removal.Contraction
import Mathlib.Data.List.Nodup

/-!
# Trees with an instance more

What a tree is to look like when an instance is added to a repeated group: the new instance comes last, and all
that was there stays as it is. A form that is laid out for one instance more is such a tree, since taking the
last instance away from it again leaves the form that was there before.
-/
namespace Formwork

section

variable (key : String) (i : GroupInstance)

mutual

/-- The group with another instance of the one registered under `key`. -/
def Group.adding : Group → Group
  | ⟨own, title, kind, enabled, conditions, scope, repeatKey, instances⟩ =>
    ⟨own, title, kind, enabled, conditions, scope, repeatKey,
      if repeatKey = some key then instances ++ [i] else GroupInstance.listAdding instances⟩

def GroupInstance.listAdding : List GroupInstance → List GroupInstance
  | [] => []
  | ⟨index, label, own, children⟩ :: rest =>
    ⟨index, label, own, Group.listAdding children⟩ :: GroupInstance.listAdding rest

def Group.listAdding : List Group → List Group
  | [] => []
  | g :: rest => Group.adding g :: Group.listAdding rest

end

/-- The tree with another instance of the group registered under `key`, which comes last. -/
def FormTree.adding (t : FormTree) : FormTree := ⟨Group.listAdding key i t.groups⟩

mutual

theorem Group.fields_subset_adding : ∀ g : Group, g.fields ⊆ (g.adding key i).fields
  | ⟨_, _, _, _, _, _, repeatKey, instances⟩, f, hf => by
    rw [Group.fields] at hf
    rw [Group.adding, Group.fields]
    split
    · obtain ⟨j, hj, within⟩ := GroupInstance.exists_of_mem_listFields hf
      exact GroupInstance.allFields_subset_listFields (List.mem_append_left _ hj) within
    · exact GroupInstance.listFields_subset_listAdding instances hf

theorem GroupInstance.listFields_subset_listAdding : ∀ l : List GroupInstance,
    GroupInstance.listFields l ⊆ GroupInstance.listFields (GroupInstance.listAdding key i l)
  | [], _, hf => hf
  | ⟨_, _, own, children⟩ :: rest, f, hf => by
    rw [GroupInstance.listFields] at hf
    rw [GroupInstance.listAdding, GroupInstance.listFields]
    rcases List.mem_append.1 hf with hf | hf
    · rcases List.mem_append.1 hf with hf | hf
      · exact List.mem_append_left _ (List.mem_append_left _ hf)
      · have later := Group.listFields_subset_listAdding children hf
        exact List.mem_append_left _ (List.mem_append_right _ later)
    · exact List.mem_append_right _ (GroupInstance.listFields_subset_listAdding rest hf)

theorem Group.listFields_subset_listAdding :
    ∀ l : List Group, Group.listFields l ⊆ Group.listFields (Group.listAdding key i l)
  | [], _, hf => hf
  | g :: rest, f, hf => by
    rw [Group.listFields] at hf
    rw [Group.listAdding, Group.listFields]
    rcases List.mem_append.1 hf with hf | hf
    · exact List.mem_append_left _ (Group.fields_subset_adding g hf)
    · exact List.mem_append_right _ (Group.listFields_subset_listAdding rest hf)

end

variable {key i} {r : Removal}

/-- The instance is the last one of the group, and the one that is removed. -/
def Group.EndsIn (r : Removal) (i : GroupInstance) (g : Group) : Prop :=
  ∃ front, g.instances = front ++ [i] ∧ front.length + 1 = r.index

mutual

/-- Adding an instance takes back that it was removed, if it was the last one. -/
theorem Group.adding_without : ∀ g : Group,
    (∀ h ∈ g.withGroupsBelow, h.repeatKey = some key → h.EndsIn r i) → (g.without key r).adding key i = g
  | ⟨own, title, kind, enabled, conditions, scope, repeatKey, instances⟩, ends => by
    rw [Group.withGroupsBelow] at ends
    rw [Group.without, Group.adding]
    by_cases self : repeatKey = some key
    · obtain ⟨front, rfl, length⟩ := ends _ List.mem_cons_self self
      rw [if_pos self, if_pos self, Removal.remaining_append r front i [] length, List.map_nil,
        List.append_nil]
    · rw [if_neg self, if_neg self, GroupInstance.listAdding_listWithout instances
        fun h hh => ends h (List.mem_cons_of_mem _ hh)]

theorem GroupInstance.listAdding_listWithout : ∀ l : List GroupInstance,
    (∀ h ∈ GroupInstance.listGroups l, h.repeatKey = some key → h.EndsIn r i) →
      GroupInstance.listAdding key i (GroupInstance.listWithout key r l) = l
  | [], _ => rfl
  | ⟨_, _, _, children⟩ :: rest, ends => by
    rw [GroupInstance.listGroups] at ends
    rw [GroupInstance.listWithout, GroupInstance.listAdding,
      Group.listAdding_listWithout children fun h hh => ends h (List.mem_append_left _ hh),
      GroupInstance.listAdding_listWithout rest fun h hh => ends h (List.mem_append_right _ hh)]

theorem Group.listAdding_listWithout : ∀ l : List Group,
    (∀ h ∈ Group.listGroups l, h.repeatKey = some key → h.EndsIn r i) →
      Group.listAdding key i (Group.listWithout key r l) = l
  | [], _ => rfl
  | g :: rest, ends => by
    rw [Group.listGroups] at ends
    rw [Group.listWithout, Group.listAdding,
      Group.adding_without g fun h hh => ends h (List.mem_append_left _ hh),
      Group.listAdding_listWithout rest fun h hh => ends h (List.mem_append_right _ hh)]

end

end

/-- The removal of the last one of `n` instances. -/
def Removal.last (key : String) (n : Nat) : Removal := ⟨key ++ "_", n, n⟩

/-- What is not spared is in the slot of the last instance. -/
theorem Removal.exists_of_not_spares_last {key name : String} {n : Nat} (away : ¬(last key n).Spares name) :
    ∃ slot, Slot.ofName? (key ++ "_") name = some slot ∧ slot.index = n := by
  simp only [Spares, last, not_forall, not_or] at away
  obtain ⟨slot, read, first, beyond⟩ := away
  exact ⟨slot, read, by omega⟩

def Registry.raised (key : String) (g : Registry) : Registry :=
  { g with counts := Table.modify key (· + 1) g.counts }

/-- What it takes for an added instance to come last and to be a new one: the form is laid out from its own
counts, the group may have one more instance, its bounds are the same afterwards, no name outside of it reads
as one inside it, and no count is recorded for the new instance. -/
structure Registry.Extends (g : Registry) (key : String) (n : Nat) (tree' : FormTree) (final : Registry) :
    Prop where
  ascending : g.counts.Ascending
  count : g.count? key = some n
  entered : (g.entry? key).isSome
  bounds : ∀ e e', g.entry? key = some e → final.entry? key = some e' → e'.bounds = e.bounds
  able : ∀ e, g.entry? key = some e → n < e.bounds.max
  apart : tree'.Apart key
  unrecorded : ∀ name slot, Slot.ofName? (key ++ "_") name = some slot → slot.index = n + 1 →
    g.count? name = none

namespace FormTree

variable {layout : Layout} {template : Template} {g final : Registry} {tree tree' : FormTree} {key : String}
  {n : Nat} (h : g.Extends key n tree' final) (again : build layout template g = (tree, g))
  (built : build layout template (g.raised key) = (tree', final))

include h again built

theorem count?_raised : final.count? key = some (n + 1) := by
  have raised : (g.raised key).count? key = some (n + 1) := by
    rw [Registry.count?, Registry.raised, Table.get?_modify_self]
    exact congrArg (Option.map (· + 1)) h.count
  cases entry' : final.entry? key with
  | none => exact (count?_of_not_entered built entry').trans raised
  | some e' =>
    obtain ⟨e, entry⟩ := Option.isSome_iff_exists.1 h.entered
    obtain ⟨named, -⟩ := holds_of_build built entry'
    obtain ⟨-, m, count, holds⟩ := holds_of_build again entry
    obtain rfl := Option.some.inj (h.count.symm.trans count)
    have able := h.able e entry
    have least := holds.least
    have clamped : e.bounds.clamp (n + 1) = min (max (n + 1) e.bounds.min) e.bounds.max := rfl
    have told : e.bounds.clamp (n + 1) = n + 1 := by omega
    rw [count?_of_build built entry', Registry.countFor, named, raised, h.bounds e e' entry entry', told]

variable (limit : n + 1 < Slot.indexLimit)

include limit

/-- The removal that takes the added instance away again. -/
theorem contracts_raised : (Removal.last key (n + 1)).Contracts key layout layout final
    { final with counts := Table.modify key (· - 1) ((Removal.last key (n + 1)).shift final.counts) } := by
  have ascending : final.counts.Ascending := by
    obtain ⟨q, known, grown⟩ := build_grown layout template (g.raised key)
    rw [built] at known
    obtain rfl : final = q.registry := known
    exact grown.sorted (Table.ascending_modify key _ h.ascending)
  refine Removal.contracts_shift ascending (count?_raised h again built) limit (Nat.succ_pos n) le_rfl
    (fun e' entry' => ?_) rfl
  obtain ⟨e, entry⟩ := Option.isSome_iff_exists.1 h.entered
  obtain ⟨-, m, count, holds⟩ := holds_of_build again entry
  obtain rfl := Option.some.inj (h.count.symm.trans count)
  rw [h.bounds e e' entry entry']
  exact Nat.lt_succ_of_le holds.least

/-- Without the added instance, the form is the one that was there before. A group that is not in the slot of
the instance is entered alike with it and without it, and told the same count; for what is in the slot, there is
a count in neither registry. -/
theorem without_of_build_raised : tree'.without key (Removal.last key (n + 1)) = tree := by
  let r := Removal.last key (n + 1)
  let lowered : Registry := { final with counts := Table.modify key (· - 1) (r.shift final.counts) }
  have contracts : r.Contracts key layout layout final lowered := contracts_raised h again built limit
  obtain ⟨-, counts, entries, exact⟩ := build_contracted built contracts rfl
  obtain ⟨without, -⟩ := exact (fun f hf => Removal.spares_of_ofName?_eq_none (h.apart.controls f hf))
    fun g hg => Removal.spares_of_ofName?_eq_none (h.apart.groups g hg)
  have less : build layout template lowered =
    (tree'.without key r, (build layout template lowered).2) := Prod.ext without rfl
  have tells : layout.Tells layout g (build layout template lowered).2 := by
    refine ⟨rfl, fun other e entry => ?_⟩
    obtain ⟨rfl, -⟩ := holds_of_build less entry
    have told := count?_of_build less entry
    by_cases self : e.key = key
    · have same : lowered.count? e.key = g.count? e.key := by
        rw [self, h.count]
        exact contracts.lowered
      rw [told, Registry.countFor_congr same]
    · by_cases spared : r.Spares e.key
      · have entry' : final.entry? e.key = some e := (entries e.key spared).symm.trans entry
        have same : (g.raised key).count? e.key = g.count? e.key := Table.get?_modify_of_ne self _ _
        rw [counts e.key spared self, contracts.same e.key spared self, count?_of_build built entry',
          Registry.countFor_congr same]
      · obtain ⟨slot, read, index⟩ := Removal.exists_of_not_spares_last spared
        have unrecorded : lowered.count? e.key = none := by
          refine (Table.get?_modify_of_ne self (· - 1) _).trans (Table.get?_eq_none_iff.2 fun there => ?_)
          exact Removal.index_ne_count contracts.range there read index
        have same : lowered.count? e.key = g.count? e.key :=
          unrecorded.trans (h.unrecorded e.key slot read index).symm
        rw [told, Registry.countFor_congr same]
  obtain ⟨again', built', -⟩ := build_retold less rfl tells
  exact congrArg Prod.fst (built'.symm.trans again)

/-- A form that is laid out for one instance more is the one that was there before with another instance, and
this comes last. -/
theorem build_raised_eq_adding :
    ∃ i : GroupInstance, i.index = some (n + 1) ∧ i.Under key tree'.allGroups ∧ tree' = tree.adding key i := by
  have without := without_of_build_raised h again built limit
  obtain ⟨q, known, grown⟩ := build_grown layout template (g.raised key)
  rw [built] at known grown
  obtain rfl : final = q.registry := known
  obtain ⟨g', hg', repeats⟩ : ∃ g' ∈ tree'.allGroups, g'.repeatKey = some key := by
    refine Classical.byContradiction fun absent => ?_
    have same : tree'.without key (Removal.last key (n + 1)) = tree' :=
      congrArg FormTree.mk (Group.listWithout_eq_self key _ tree'.groups
        fun g' hg' repeats => absent ⟨g', hg', repeats⟩)
    obtain ⟨e, entry⟩ := Option.isSome_iff_exists.1 h.entered
    rw [← same, without] at absent
    exact absent (exists_group_of_entry again entry)
  obtain ⟨-, count, -⟩ := grown.counted g' hg' key repeats
  have length : g'.instances.length = n + 1 :=
    Option.some.inj (count.symm.trans (count?_raised h again built))
  have numbers := (makes_of_build built hg').numbers key repeats
  obtain ⟨front, i, split⟩ : ∃ front i, g'.instances = front ++ [i] := by
    refine ⟨g'.instances.dropLast, g'.instances.getLast ?_, (List.dropLast_concat_getLast _).symm⟩
    exact List.ne_nil_of_length_pos (by omega)
  rw [split, List.length_append, List.length_singleton] at length
  refine ⟨i, ?_, ⟨g', hg', repeats, split ▸ List.mem_append_right _ List.mem_cons_self⟩, ?_⟩
  · rw [split, List.length_append, List.length_singleton, List.range'_concat, List.map_append,
      List.map_append] at numbers
    have last := List.append_inj_right' numbers rfl
    have := List.head_eq_of_cons_eq last
    rw [this]
    congr 1
    omega
  · rw [← without]
    refine congrArg FormTree.mk (Group.listAdding_listWithout tree'.groups fun other hother repeats' => ?_).symm
    obtain rfl : other = g' := eq_of_repeatKey built hother hg' repeats' repeats
    exact ⟨front, split, length⟩

variable {i : GroupInstance} (number : i.index = some (n + 1)) (under : i.Under key tree'.allGroups)

include number under

/-- What is in the added instance has names that are not there yet. -/
theorem controlId_ne_of_raised (apart : tree.Apart key) {f : PlacedField} (hf : f ∈ i.allFields) :
    ∀ other ∈ tree.fields, other.controlId ≠ f.controlId := by
  intro other hother same
  obtain ⟨g', hg', repeats, hi⟩ := under
  obtain ⟨rest, named⟩ := (makes_of_build built hg').opens key repeats i hi (n + 1) number f hf
  have read := Slot.ofName?_name (key ++ "_") (s := ⟨n + 1, rest⟩) limit
  rw [← named, ← same] at read
  obtain ⟨m, count, le⟩ := index_le_of_field apart again hother read
  obtain rfl := Option.some.inj (h.count.symm.trans count)
  exact absurd le (Nat.not_succ_le_self n)

omit again in
/-- The counts in the added instance are those that the document tells. -/
theorem count?_of_raised {inner : Group} (inside : inner ∈ Group.listGroups i.children) {other : String}
    (repeats' : inner.repeatKey = some other) :
    ∃ e, final.entry? other = some e ∧ final.count? other = some (e.toldCount layout.stored) := by
  obtain ⟨g', hg', repeats, hi⟩ := under
  obtain ⟨q, known, grown⟩ := build_grown layout template (g.raised key)
  rw [built] at known grown
  obtain rfl : final = q.registry := known
  obtain ⟨rfl, -, e, entry, -⟩ :=
    grown.counted inner (listGroups_subset_allGroups hg' hi inside) other repeats'
  obtain ⟨rest, named⟩ := (makes_of_build built hg').opensGroups repeats hi number inside
  have read := Slot.ofName?_name (key ++ "_") (s := ⟨n + 1, rest⟩) limit
  rw [← named] at read
  obtain ⟨same, -⟩ := holds_of_build built entry
  have unrecorded : (g.raised key).count? e.key = none := by
    rw [same]
    exact (Table.get?_modify_of_ne (Slot.ne_of_ofName? read) (· + 1) _).trans
      (h.unrecorded inner.key _ read rfl)
  refine ⟨e, entry, ?_⟩
  rw [count?_of_build built entry, Registry.countFor_of_unrecorded unrecorded]

end FormTree

end Formwork
