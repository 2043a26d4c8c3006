import Formwork.Proofs.Layout.Instances
import Formwork.Proofs.Layout.Telling
import Formwork.Proofs.Session.Standing
import Formwork.Proofs.Removal.Shifting

/-!
# Tables of a session in order

The counts of repeated groups and the selections of lookups are kept in the order of their names. The
order matters where names are changed and two of them may become one.
-/
namespace Formwork.Session

structure Sorted (s : Session) : Prop where
  counts : s.registry.counts.Ascending
  selections : s.selections.Ascending

variable {s t : Session}

theorem Sorted.of_same (h : s.Sorted) (registry : t.registry = s.registry)
    (selections : t.selections = s.selections) : t.Sorted :=
  ⟨registry ▸ h.counts, selections ▸ h.selections⟩

theorem Sorted.settle (h : s.Sorted) : s.settle.Sorted :=
  h.of_same (registry_settle s) (selections_settle s)

theorem sorted_rebuild (before : Fields) (s : Session) (counts : s.registry.counts.Ascending)
    (selections : s.selections.Ascending) : (s.rebuild before).Sorted := by
  refine Sorted.settle ⟨?_, selections⟩
  obtain ⟨q, built, grown⟩ := FormTree.build_grown
    ⟨s.step, s.stored, s.config.repeatFallbackMax⟩ s.template s.registry
  have registry : ((s.layOut.bind before).reconcile).registry = q.registry := built
  rw [registry]
  exact grown.sorted counts

/-- No operation leaves the order. -/
theorem Sorted.run (h : s.Sorted) (operation : Operation) : (s.run operation).Sorted := by
  have forgotten : Registry.empty.counts.Ascending := Table.ascending_nil
  have effect := s.effect_run operation
  generalize s.run operation = t at effect ⊢
  cases effect with
  | refused => exact h
  | passTime => exact ⟨h.counts, h.selections⟩
  | setOperator => exact sorted_rebuild _ _ h.counts h.selections
  | loadTemplate => exact sorted_rebuild _ _ forgotten Table.ascending_nil
  | fetchTemplate => exact sorted_rebuild _ _ forgotten Table.ascending_nil
  | loadDocument => exact sorted_rebuild _ _ forgotten Table.ascending_nil
  | fetchDocument => exact sorted_rebuild _ _ forgotten Table.ascending_nil
  | setStep => exact sorted_rebuild _ _ h.counts Table.ascending_nil
  | setValue => exact Sorted.settle ⟨h.counts, h.selections⟩
  | touch => exact ⟨h.counts, h.selections⟩
  | addInstance key registry added =>
    obtain ⟨e, n, -, -, -, rfl⟩ := Registry.add?_eq_some_iff.1 added
    exact sorted_rebuild _ _ (Table.ascending_modify key _ h.counts) h.selections
  | removeInstance key index r registry removed =>
    obtain ⟨e, n, -, -, -, -, -, -, rfl⟩ := Registry.remove?_eq_some_iff.1 removed
    have counts : (Table.modify key (· - 1) (r.shift s.registry.counts)).Ascending :=
      Table.ascending_modify key _ (Table.ascending_ofPairs _)
    have selections : (r.shift s.selections).Ascending := Table.ascending_ofPairs _
    exact sorted_rebuild _ _ counts selections
  | askForChoices => exact ⟨h.counts, h.selections⟩
  | missedChoices => exact h
  | receiveChoices => exact Sorted.settle ⟨h.counts, h.selections⟩
  | resolveChoices => exact Sorted.settle ⟨h.counts, h.selections⟩
  | select id selected => exact Sorted.settle ⟨h.counts, Table.ascending_insert id selected h.selections⟩
  | deselect id => exact Sorted.settle ⟨h.counts, Table.ascending_erase id h.selections⟩
  | commitSaved => exact ⟨h.counts, h.selections⟩
  | save => exact ⟨h.counts, h.selections⟩

theorem Reachable.sorted (h : Reachable s) : s.Sorted := by
  induction h with
  | start now config template => exact sorted_rebuild _ _ Table.ascending_nil Table.ascending_nil
  | run _ operation ih => exact ih.run operation

theorem LaidOut.stem_eq (h : s.LaidOut) {key : String} {e : RepeatEntry}
    (entry : s.registry.entry? key = some e) : e.stem = key ++ "_" := by
  obtain ⟨stored, registry, built⟩ := h
  obtain ⟨rfl, n, -, holds⟩ := FormTree.holds_of_build built entry
  exact holds.stem

/-- Every group of the form is what is laid out for a section. -/
theorem LaidOut.makes (h : s.LaidOut) : ∃ layout : Layout, ∀ g ∈ s.tree.allGroups, layout.Makes g := by
  obtain ⟨stored, registry, built⟩ := h
  have makes := FormTree.makes_build ⟨s.step, stored, s.config.repeatFallbackMax⟩ s.template registry
  rw [built] at makes
  exact ⟨_, makes⟩

/-- A form that can be reached is laid out again as it is, whatever document there is. -/
theorem Reachable.build_again (h : Reachable s) (stored : Fields) :
    FormTree.build ⟨s.step, stored, s.config.repeatFallbackMax⟩ s.template s.registry =
      (s.tree, s.registry) := by
  obtain ⟨_, _, built⟩ := h.standing.laidOut
  exact FormTree.build_again built h.sorted.counts rfl rfl

theorem Reachable.layOut_eq (h : Reachable s) : s.layOut = s := by
  rw [layOut, h.build_again]

end Formwork.Session
