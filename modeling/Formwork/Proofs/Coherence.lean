import Formwork.Proofs.Answers.Determined
import Formwork.Proofs.Layout.Instances
import Formwork.Proofs.Layout.Telling
import Formwork.Proofs.Removal
import Formwork.Proofs.Session.Supply

/-!
# The parts of a session fit together

Tree, controls, registry, offers and groups in view are made by different functions and changed by different
operations. In every session that can be reached they are about the same fields and groups: there is a
control for each field, a mark for each group, an entry and a count for each repeated group, and an offer for
each control that takes choices.
-/
namespace Formwork.Session

/-- The group has an entry and a count within its bounds, and that many instances, numbered from one on. -/
structure Registers (s : Session) (g : Group) (e : RepeatEntry) (n : Nat) : Prop where
  entry : s.registry.entry? g.key = some e
  key : e.key = g.key
  count : s.registry.count? g.key = some n
  least : e.bounds.min ≤ n
  greatest : n ≤ e.bounds.max
  instances : g.instances.map (·.index) = (List.range' 1 n).map some

/-- Each part of the session is about the fields and groups of the tree. -/
structure Coherent (s : Session) : Prop where
  controlIds : (s.tree.fields.map (·.controlId)).Nodup
  groupKeys : (s.tree.allGroups.map (·.key)).Nodup
  controls : s.controls.ids = s.tree.fields.map (·.controlId)
  groups : s.groups.names.Perm (s.tree.allGroups.map (·.key))
  repeats : s.registry.entries.names.Perm
    ((s.tree.allGroups.filter (·.repeatKey.isSome)).map (·.key))
  registers : ∀ g ∈ s.tree.allGroups, g.repeatKey.isSome = true →
    g.repeatKey = some g.key ∧ ∃ e n, s.Registers g e n
  offers : s.catalog.offers.names.Perm
    ((s.tree.fields.filter (·.field.kind.takesChoices)).map (·.controlId))

variable {s : Session}

theorem LaidOut.groupKeys (h : s.LaidOut) : (s.tree.allGroups.map (·.key)).Nodup := by
  obtain ⟨stored, registry, built⟩ := h
  have distinct := FormTree.nodup_keys_build
    ⟨s.step, stored, s.config.repeatFallbackMax⟩ s.template registry
  rwa [built] at distinct

/-- A repeated group is registered under its key, with the count of its instances. -/
theorem LaidOut.registers (h : s.LaidOut) {g : Group} (hg : g ∈ s.tree.allGroups) {key : String}
    (repeats : g.repeatKey = some key) : key = g.key ∧ ∃ e, s.Registers g e g.instances.length := by
  obtain ⟨_, makes⟩ := h.makes
  obtain ⟨stored, registry, built⟩ := h
  obtain ⟨q, known, grown⟩ := FormTree.build_grown
    ⟨s.step, stored, s.config.repeatFallbackMax⟩ s.template registry
  rw [built] at known grown
  obtain ⟨rfl, count, e, entry, -⟩ := grown.counted g hg key repeats
  rw [← known] at count entry
  obtain ⟨named, n, count', holds⟩ := FormTree.holds_of_build built entry
  obtain rfl := Option.some.inj (count'.symm.trans count)
  exact ⟨rfl, e, entry, named, count, holds.least, holds.greatest, (makes g hg).numbers g.key repeats⟩

/-- The groups that are registered are the repeated groups of the tree. -/
theorem LaidOut.repeats (h : s.LaidOut) : s.registry.entries.names.Perm
    ((s.tree.allGroups.filter (·.repeatKey.isSome)).map (·.key)) := by
  obtain ⟨stored, registry, built⟩ := id h
  refine Table.names_perm (FormTree.ascending_entries_of_build built)
    (h.groupKeys.sublist (List.filter_sublist.map _)) fun key => ?_
  rw [List.mem_map]
  constructor
  · intro there
    obtain ⟨e, entry⟩ := Option.isSome_iff_exists.1 there
    obtain ⟨g, hg, repeats⟩ := FormTree.exists_group_of_entry built entry
    have named := (h.registers hg repeats).1
    exact ⟨g, List.mem_filter.2 ⟨hg, Option.isSome_of_eq_some repeats⟩, named.symm⟩
  · rintro ⟨g, hg, rfl⟩
    obtain ⟨hg, there⟩ := List.mem_filter.1 hg
    obtain ⟨key, repeats⟩ := Option.isSome_iff_exists.1 there
    obtain ⟨-, e, registers⟩ := h.registers hg repeats
    exact Option.isSome_of_eq_some registers.entry

/-- There is a mark for each group. -/
theorem Standing.groups_perm (h : s.Standing) : s.groups.names.Perm (s.tree.allGroups.map (·.key)) := by
  have plan := FormTree.map_fst_plan_groups_perm s.controls s.tree
  have distinct := plan.nodup_iff.2 h.laidOut.groupKeys
  rw [h.groups_eq]
  exact (Table.names_ofPairs_perm distinct).trans plan

/-- There is an offer for each control that takes choices. -/
theorem Reachable.offers_perm (h : Reachable s) : s.catalog.offers.names.Perm
    ((s.tree.fields.filter (·.field.kind.takesChoices)).map (·.controlId)) := by
  refine Table.names_perm h.stocked.sound.offers
    (h.standing.laidOut.distinct.sublist (List.filter_sublist.map _)) fun id => ?_
  have serves : (s.catalog.shut? id).isSome = true ↔ _ := h.serves id
  rw [Catalog.shut?, Option.isSome_map] at serves
  refine serves.trans ?_
  simp only [List.mem_map, List.mem_filter, supply, and_assoc]
  exact exists_congr fun p => and_congr_right fun _ => and_comm

/-- In every session that can be reached, each part is about the fields and groups of the tree. -/
theorem Reachable.coherent (h : Reachable s) : s.Coherent where
  controlIds := h.standing.laidOut.distinct
  groupKeys := h.standing.laidOut.groupKeys
  controls := h.standing.bound.ids
  groups := h.standing.groups_perm
  repeats := h.standing.laidOut.repeats
  registers := by
    intro g hg there
    obtain ⟨key, repeats⟩ := Option.isSome_iff_exists.1 there
    obtain ⟨rfl, e, registers⟩ := h.standing.laidOut.registers hg repeats
    exact ⟨repeats, e, _, registers⟩
  offers := h.offers_perm

/-- The contacts and the other contacts without the first contact, by whose removal a count was lost. -/
def strayContacts : Session := lookalike.run (.removeInstance "contacts" 1)

/-- Each group still has the count of its instances. -/
theorem coherent_strayContacts :
    strayContacts.Reachable ∧ strayContacts.Coherent ∧
      strayContacts.registry.entries.names = ["contacts", "contacts_2", "contacts_2_1_phones"] ∧
      strayContacts.registry.count? "contacts_2_1_phones" = some 1 := by
  have reachable : strayContacts.Reachable := (((Reachable.start ..).run _).run _).run _
  exact ⟨reachable, reachable.coherent, by decide +kernel, by decide +kernel⟩

end Formwork.Session
