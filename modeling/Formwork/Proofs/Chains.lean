import Formwork.Proofs.Ordering
import Formwork.Proofs.Settling.Reshowing

/-!
# Chains of dependencies

Where no control depends on itself or on more than one, however many steps apart, following the dependencies
once brings all of them to rest: what is lost at the top of a chain is lost all the way down in the same pass.
Settling such a form therefore ends in a round that reports no change. A round that reports one and is not
followed by the last has taken a value by going out of view, so there is one round for every control at most,
and two more.
-/
namespace Formwork

namespace Dependency

/-- No control depends on itself, in however many steps, and none depends directly on more than one. -/
structure Forest (edges : List Dependency) : Prop where
  acyclic : Acyclic edges
  single : (edges.map child).Nodup

variable {edges : List Dependency}

/-- In order, no dependency is about the child or the parent of an earlier one. -/
theorem Forest.sweep (h : Forest edges) :
    (ordered edges).Pairwise fun d e => d.child ≠ e.child ∧ d.parent ≠ e.child := by
  have single : ((ordered edges).map child).Nodup := (ordered_perm.map child).nodup_iff.2 h.single
  have children : (ordered edges).Pairwise fun d e => d.child ≠ e.child := List.pairwise_map.1 single
  exact children.and ((pairwise_of_backed (backed_nodeOrder h.acyclic)).imp Ne.symm)

theorem Forest.apart (h : Forest edges) : ∀ e ∈ ordered edges, e.parent ≠ e.child := fun e he same =>
  h.acyclic e.parent (.single ⟨e, mem_ordered_iff.1 he, rfl, same.symm⟩)

end Dependency

namespace Session

def afterRounds : Nat → Session → Session
  | 0, s => s
  | n + 1, s => afterRounds n s.round.1

/-- The form follows the dependencies that its rules ask for, these are a forest, and no two controls have the
same identifier. The values and flags of the controls and the choices on offer may be any. -/
structure Forested (s : Session) : Prop where
  wired : s.dependencies = Dependency.ordered (Dependency.ofRules s.config.dependentRules s.tree)
  forest : Dependency.Forest (Dependency.ofRules s.config.dependentRules s.tree)
  distinct : s.controls.ids.Nodup

variable {s : Session}

namespace Forested

theorem distinct_refresh (h : s.Forested) : s.refresh.controls.ids.Nodup := by
  rw [ids_refresh]
  exact h.distinct

theorem round (h : s.Forested) : s.round.1.Forested := by
  have ids := (round_fades h.distinct).wanes.ids
  exact ⟨h.wired, h.forest, ids ▸ h.distinct⟩

/-- Following the dependencies once brings all of them to rest. -/
theorem atRest_refresh (h : s.Forested) : ∀ e ∈ s.dependencies, Refresh.AtRest s.config s.refresh e := by
  have sweep := h.forest.sweep
  have apart := h.forest.apart
  rw [← h.wired] at sweep apart
  exact Refresh.atRest_foldl_follow sweep apart

/-- If nothing is lost by going out of view, there is nothing to do for the dependencies in the next round. -/
theorem refresh_round (h : s.Forested)
    (same : s.round.1.controls.readings = s.refresh.controls.readings) :
    s.round.1.refresh = ⟨s.round.1.controls, s.round.1.catalog, false⟩ := by
  have shown : s.refresh.controls.Reshown s.round.1.controls :=
    (VisibilityPlan.apply_of_spared h.distinct_refresh (VisibilityPlan.spared_of_apply same)).1
  exact Refresh.foldl_follow_of_atRest (r := ⟨s.round.1.controls, s.round.1.catalog, false⟩)
    h.round.distinct fun e he => (h.atRest_refresh e he).reshown shown

/-- If nothing is lost by going out of view, the next round reports no change. -/
theorem unreported_round (h : s.Forested)
    (same : s.round.1.controls.readings = s.refresh.controls.readings) : s.round.1.round.2 = false := by
  have split : s.round.1.round.2 = (s.round.1.refresh.changed ||
      !((s.tree.plan s.round.1.refresh.controls).apply s.round.1.refresh.controls).2.isEmpty) := rfl
  have spared : ∀ e ∈ (s.tree.plan s.round.1.controls).fields, s.round.1.controls.Spared e := by
    rw [FormTree.plan_congr same]
    exact fun e he => (ControlSet.spared_congr same e).2 (VisibilityPlan.spared_of_apply same e he)
  rw [split, h.refresh_round same, (VisibilityPlan.apply_of_spared h.round.distinct spared).2]
  rfl

/-- There is a first round that reports no change. Every round before the one that comes before it takes a
value, and a value that is taken is lost for good. -/
theorem exists_unreported (h : s.Forested) :
    ∃ n ≤ s.controls.filledCount + 1, (∀ m < n, (afterRounds m s).round.2 = true) ∧
      (afterRounds n s).round.2 = false := by
  induction count : s.controls.filledCount using Nat.strongRecOn generalizing s with
  | ind c ih =>
    cases reported : s.round.2 with
    | false => exact ⟨0, Nat.zero_le _, fun m hm => absurd hm (Nat.not_lt_zero m), reported⟩
    | true =>
      have later {n : Nat} (first : ∀ m < n, (afterRounds m s.round.1).round.2 = true) :
          ∀ m < n + 1, (afterRounds m s).round.2 = true
        | 0, _ => reported
        | m + 1, hm => first m (Nat.lt_of_succ_lt_succ hm)
      rcases s.presented_fades.wanes.readings_eq_or_lt with same | less
      · have none : ∀ m < 0, (afterRounds m s.round.1).round.2 = true := fun m hm =>
          absurd hm (Nat.not_lt_zero m)
        exact ⟨1, by omega, later none, h.unreported_round same⟩
      · have kept := (refresh_fades h.distinct).wanes.filledCount_le
        obtain ⟨n, hn, first, last⟩ := ih s.round.1.controls.filledCount (by omega) h.round rfl
        exact ⟨n + 1, by omega, later first, last⟩

end Forested

/-- Settling ends with the first round that reports no change, if it has rounds enough. -/
theorem settleWithin_of_unreported {n fuel : Nat} (enough : n < fuel)
    (first : ∀ m < n, (afterRounds m s).round.2 = true) (last : (afterRounds n s).round.2 = false) :
    settleWithin fuel s = (afterRounds n s).round.1 := by
  induction n generalizing s fuel with
  | zero =>
    obtain ⟨fuel, rfl⟩ := Nat.exists_eq_add_of_lt enough
    have reported : s.round.2 = false := last
    simp only [settleWithin, reported, Bool.false_eq_true, if_false]
    rfl
  | succ n ih =>
    obtain ⟨fuel, rfl⟩ : ∃ k, fuel = k + 1 := ⟨fuel - 1, by omega⟩
    have reported : s.round.2 = true := first 0 (Nat.succ_pos n)
    simp only [settleWithin, reported, if_true]
    exact ih (by omega) (fun m hm => first (m + 1) (by omega)) last

/-- Whatever the controls and the choices on offer are, following a forest of dependencies a second time reports
no change and makes none. Settling the form ends with the first round that reports no change, and there is such
a round among those that it is given. -/
theorem settle_of_forested (h : s.Forested) :
    Refresh.followAll s.config s.dependencies s.refresh.controls s.refresh.catalog =
        ⟨s.refresh.controls, s.refresh.catalog, false⟩ ∧
      ∃ n < s.controls.length + 2, (∀ m < n, (afterRounds m s).round.2 = true) ∧
        (afterRounds n s).round.2 = false ∧ s.settle = (afterRounds n s).round.1 := by
  refine ⟨Refresh.foldl_follow_of_atRest (r := ⟨s.refresh.controls, s.refresh.catalog, false⟩)
    h.distinct_refresh h.atRest_refresh, ?_⟩
  obtain ⟨n, hn, first, last⟩ := h.exists_unreported
  have filled := s.controls.filledCount_le_length
  have enough : n < s.controls.length + 2 := by omega
  exact ⟨n, enough, first, last, settleWithin_of_unreported enough first last⟩

/-- The places with a city and a region chosen before there is a country. -/
def stranded : Session := places.layOut.bind [("city", .str "Graz"), ("region", .str "Styria")]

theorem forested_stranded : stranded.Forested where
  wired := rfl
  forest := ⟨Dependency.forward_searchOrder_iff.1 (by decide +kernel), by decide +kernel⟩
  distinct := by decide +kernel

/-- One pass empties the region and then the city, and another one finds nothing to do. -/
theorem settle_of_forested_stranded :
    stranded.Forested ∧ stranded.refresh.changed = true ∧
      stranded.controls.filledCount = 2 ∧ stranded.refresh.controls.filledCount = 0 ∧
      Refresh.followAll stranded.config stranded.dependencies stranded.refresh.controls
          stranded.refresh.catalog = ⟨stranded.refresh.controls, stranded.refresh.catalog, false⟩ ∧
      ∃ n < 5, (∀ m < n, (afterRounds m stranded).round.2 = true) ∧
        (afterRounds n stranded).round.2 = false ∧ stranded.settle = (afterRounds n stranded).round.1 :=
  ⟨forested_stranded, by decide +kernel, by decide +kernel, by decide +kernel,
    settle_of_forested forested_stranded⟩

end Session

end Formwork
