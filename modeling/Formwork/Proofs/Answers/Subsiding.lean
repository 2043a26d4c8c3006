import Formwork.Proofs.Answers.Bounding

/-!
# Conditions that subside

A condition that asks for something to be filled in, or for a value that is not that of an empty control,
holds of no value that is emptied, unless it held before. A form with no other conditions withers.
-/
namespace Formwork

/-- Emptying what the condition refers to does not make it hold. -/
def Condition.subsides (c : Condition) : Bool :=
  match c.kind with
  | .always => true
  | .hasValue => true
  | .equals => !Json.null.meets c.value
  | .notEquals => false

def Placement.subsides (p : Placement) : Bool :=
  p.field.conditions.all Condition.subsides &&
    p.around.all fun g => g.conditions.all Condition.subsides

namespace Condition

/-- A condition that an emptied value meets is met by the value before: the empty list meets nothing, and any
other empty value is `null`. -/
theorem accepts_of_wanes {c : Condition} (subsides : c.subsides = true) {v w : Json}
    (wanes : v.Wanes w) (accepts : c.accepts w = true) : c.accepts v = true := by
  rcases wanes with rfl | ⟨filled, rfl⟩
  · exact accepts
  · unfold Condition.subsides at subsides
    unfold Condition.accepts at accepts ⊢
    cases kind : c.kind with
    | always => rfl
    | hasValue => exact filled
    | notEquals =>
      rw [kind] at subsides
      cases subsides
    | equals =>
      rw [kind] at subsides accepts
      dsimp only at subsides accepts
      cases v with
      | arr items => simp [Json.emptied, Json.meets_eq, Json.parts, Json.unwrap] at accepts
      | _ =>
        have met : Json.null.meets c.value = true := accepts
        rw [met] at subsides
        cases subsides

section

variable {earlier later : ControlSet} (wanes : earlier.Wanes later) (scope : Scope)

include wanes

theorem holds_of_wanes {c : Condition} (subsides : c.subsides = true)
    (holds : c.holds later scope = true) : c.holds earlier scope = true := by
  unfold Condition.holds subject? at holds ⊢
  cases named : c.fieldId.filter fun id => !Text.isBlankText id with
  | none => rfl
  | some raw =>
    rw [named, Option.bind_some, ControlSet.resolve?_of_names wanes.names] at holds
    rw [Option.bind_some]
    cases resolved : earlier.resolve? raw scope with
    | none => rfl
    | some id =>
      rw [resolved, Option.bind_some] at holds
      rw [Option.bind_some]
      cases found : earlier.value? id with
      | none => rfl
      | some v =>
        obtain ⟨w, found', value⟩ := wanes.exists_value found
        rw [found'] at holds
        exact accepts_of_wanes subsides value holds

theorem foldl_join_of_wanes {l : List Condition} (subside : ∀ c ∈ l, c.subsides = true)
    {before before' : Bool} (first : before = true → before' = true)
    (holds : l.foldl (join later scope) before = true) :
    l.foldl (join earlier scope) before' = true := by
  induction l generalizing before before' with
  | nil => exact first holds
  | cons c l ih =>
    obtain ⟨subsides, subside⟩ := List.forall_mem_cons.1 subside
    refine ih subside (fun joined => ?_) holds
    have here := holds_of_wanes wanes scope subsides
    unfold join at joined ⊢
    cases combined : c.combinator with
    | and =>
      rw [combined] at joined
      obtain ⟨left, right⟩ := Bool.and_eq_true_iff.1 joined
      exact Bool.and_eq_true_iff.2 ⟨first left, here right⟩
    | or =>
      rw [combined] at joined
      rcases Bool.or_eq_true_iff.1 joined with left | right
      · exact Bool.or_eq_true_iff.2 (.inl (first left))
      · exact Bool.or_eq_true_iff.2 (.inr (here right))

theorem allHold_of_wanes {l : List Condition} (subside : l.all Condition.subsides = true)
    (holds : allHold later scope l = true) : allHold earlier scope l = true := by
  rw [List.all_eq_true] at subside
  cases l with
  | nil => rfl
  | cons first rest =>
    obtain ⟨subsides, subside⟩ := List.forall_mem_cons.1 subside
    exact foldl_join_of_wanes wanes scope subside (holds_of_wanes wanes scope subsides) holds

end

end Condition

/-- What is in view after something was lost was so before. -/
theorem Placement.isShown_of_wanes {earlier later : ControlSet} (wanes : earlier.Wanes later)
    {p : Placement} (subsides : p.subsides = true) (shown : p.isShown later = true) :
    p.isShown earlier = true := by
  obtain ⟨own, around⟩ := Bool.and_eq_true_iff.1 subsides
  obtain ⟨allowed, holds⟩ := Bool.and_eq_true_iff.1 shown
  rw [List.all_eq_true] at around allowed
  refine Bool.and_eq_true_iff.2 ⟨List.all_eq_true.2 fun g hg => ?_, ?_⟩
  · obtain ⟨enabled, conditions⟩ := Bool.and_eq_true_iff.1 (allowed g hg)
    exact Bool.and_eq_true_iff.2 ⟨enabled, Condition.allHold_of_wanes wanes _ (around g hg) conditions⟩
  · exact Condition.allHold_of_wanes wanes _ own holds

/-- A form whose conditions subside withers. -/
theorem Session.withers_of_subsides {u : Session}
    (subside : ∀ p ∈ u.tree.placements, p.subsides = true) : u.Withers :=
  fun _ _ _ wanes _ p hp _ _ _ shown => Placement.isShown_of_wanes wanes (subside p hp) shown

end Formwork
