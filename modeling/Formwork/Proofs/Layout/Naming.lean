import Formwork.Proofs.Layout.Steps

/-!
# The names that are given

A name is given by going through the variants of a candidate until one is not taken. Which variant that
is depends on which of them are taken and on nothing else, not even on how long the search may last.
-/
namespace Formwork

/-- The candidate, and from two on its numbered variants. -/
def variant (candidate : String) (numbered : Nat → String) (n : Nat) : String :=
  if n < 2 then candidate else numbered n

theorem firstFree_eq (numbered : Nat → String) (taken : List String) (fuel n : Nat) :
    ∃ m, n ≤ m ∧ firstFree numbered taken fuel n = numbered m ∧
      ∀ j, n ≤ j → j < m → numbered j ∈ taken := by
  induction fuel generalizing n with
  | zero => exact ⟨n, Nat.le_refl n, rfl, fun j _ _ => by omega⟩
  | succ fuel ih =>
    unfold firstFree
    split
    · rename_i first
      obtain ⟨m, le, found, before⟩ := ih (n + 1)
      refine ⟨m, by omega, found, fun j hn hm => ?_⟩
      rcases Nat.eq_or_lt_of_le hn with rfl | hn
      · exact first
      · exact before j hn hm
    · exact ⟨n, Nat.le_refl n, rfl, fun j _ _ => by omega⟩

section

variable (candidate : String) {numbered : Nat → String}
  (distinct : ∀ i j, numbered i = numbered j → i = j) (taken : List String)

include distinct

/-- An unused name is the first variant that is not taken. -/
theorem unusedName_eq_variant :
    ∃ m, unusedName candidate numbered taken = variant candidate numbered m ∧
      variant candidate numbered m ∉ taken ∧ ∀ j < m, variant candidate numbered j ∈ taken := by
  have free := unusedName_not_mem distinct candidate taken
  unfold unusedName at free ⊢
  split
  · rename_i clash
    rw [if_pos clash] at free
    obtain ⟨m, le, found, before⟩ := firstFree_eq numbered taken taken.length 2
    have chosen : variant candidate numbered m = numbered m := if_neg (by omega)
    refine ⟨m, found.trans chosen.symm, by rwa [chosen, ← found], fun j hj => ?_⟩
    unfold variant
    split
    · exact clash
    · exact before j (by omega) hj
  · rename_i unused
    exact ⟨0, rfl, unused, fun j hj => absurd hj (Nat.not_lt_zero j)⟩

/-- Two searches that find the same variants taken choose the same variant. -/
theorem unusedName_parallel (candidate' : String) {numbered' : Nat → String}
    (distinct' : ∀ i j, numbered' i = numbered' j → i = j) {taken' : List String}
    (h : ∀ n, variant candidate numbered n ∈ taken ↔ variant candidate' numbered' n ∈ taken') :
    ∃ m, unusedName candidate numbered taken = variant candidate numbered m ∧
      unusedName candidate' numbered' taken' = variant candidate' numbered' m := by
  obtain ⟨m, chosen, free, before⟩ := unusedName_eq_variant candidate distinct taken
  obtain ⟨m', chosen', free', before'⟩ :=
    unusedName_eq_variant candidate' distinct' taken'
  have same : m = m' := by
    rcases Nat.lt_trichotomy m m' with less | same | less
    · exact absurd ((h m).2 (before' m less)) free
    · exact same
    · exact absurd ((h m').1 (before m' less)) free'
  exact ⟨m, chosen, same ▸ chosen'⟩

end

def controlVariant (candidate : String) (n : Nat) : String := candidate ++ "__" ++ Text.ofNat n

def groupVariant (candidate : String) (n : Nat) : String := candidate ++ Text.ofNat n

theorem controlVariant_injective (candidate : String) (i j : Nat)
    (h : controlVariant candidate i = controlVariant candidate j) : i = j :=
  numbered_injective _ h

theorem groupVariant_injective (candidate : String) (i j : Nat)
    (h : groupVariant candidate i = groupVariant candidate j) : i = j :=
  numbered_injective _ h

/-- What the candidate begins with does not matter for its variants. -/
theorem variant_control_append (front candidate : String) (n : Nat) :
    variant (front ++ candidate) (controlVariant (front ++ candidate)) n =
      front ++ variant candidate (controlVariant candidate) n := by
  unfold variant controlVariant
  split
  · rfl
  · simp only [String.append_assoc]

theorem variant_group_append (front candidate : String) (n : Nat) :
    variant (front ++ candidate) (groupVariant (front ++ candidate)) n =
      front ++ variant candidate (groupVariant candidate) n := by
  unfold variant groupVariant
  split
  · rfl
  · simp only [String.append_assoc]

namespace Progress

variable (candidate : String) (p : Progress)

def controlName : String := unusedName candidate (controlVariant candidate) p.controlIds

def groupName : String := unusedName candidate (groupVariant candidate) p.groupKeys

theorem nameGroup_eq : p.nameGroup candidate =
    (p.groupName candidate, { p with groupKeys := p.groupName candidate :: p.groupKeys }) := rfl

theorem controlName_not_mem : p.controlName candidate ∉ p.controlIds :=
  unusedName_not_mem (controlVariant_injective candidate) candidate p.controlIds

theorem groupName_not_mem : p.groupName candidate ∉ p.groupKeys :=
  unusedName_not_mem (groupVariant_injective candidate) candidate p.groupKeys

/-- A control is named by its candidate and what may follow it. -/
theorem controlName_eq_append : ∃ rest, p.controlName candidate = candidate ++ rest := by
  obtain ⟨m, chosen, -⟩ :=
    unusedName_eq_variant candidate (controlVariant_injective candidate) p.controlIds
  by_cases hm : m < 2
  · exact ⟨"", by rw [controlName, chosen, variant, if_pos hm, String.append_empty]⟩
  · exact ⟨"__" ++ Text.ofNat m, by
      rw [controlName, chosen, variant, if_neg hm, controlVariant, String.append_assoc]⟩

/-- A group is named by its candidate and digits that may follow it. -/
theorem groupName_eq_append : ∃ rest, p.groupName candidate = candidate ++ rest := by
  obtain ⟨m, chosen, -⟩ :=
    unusedName_eq_variant candidate (groupVariant_injective candidate) p.groupKeys
  by_cases hm : m < 2
  · exact ⟨"", by rw [groupName, chosen, variant, if_pos hm, String.append_empty]⟩
  · exact ⟨Text.ofNat m, by rw [groupName, chosen, variant, if_neg hm, groupVariant]⟩

end Progress

end Formwork
