import Formwork.Text.Numeral

/-!
# Unused names

How names that clash are changed. A name that is taken gets the least number, from two on, with which it
is free. The search for it is bounded by the number of names taken, and that is enough: the result is
never taken.
-/
namespace Formwork

/-- The first of `numbered n`, `numbered (n + 1)`, … that is not taken, if it is among the first
`fuel` ones. -/
def firstFree (numbered : Nat → String) (taken : List String) : Nat → Nat → String
  | 0, n => numbered n
  | fuel + 1, n =>
    if numbered n ∈ taken then firstFree numbered taken fuel (n + 1) else numbered n

/-- The candidate if it is not taken, or else the first of its numbered variants, from two on, that is
not. -/
def unusedName (candidate : String) (numbered : Nat → String) (taken : List String) : String :=
  if candidate ∈ taken then firstFree numbered taken taken.length 2 else candidate

/-- If the search ends with a name that is taken, every name that it tried is. -/
theorem mem_of_firstFree_mem {numbered : Nat → String} {taken : List String} {fuel n : Nat}
    (h : firstFree numbered taken fuel n ∈ taken) : ∀ i < fuel + 1, numbered (n + i) ∈ taken := by
  induction fuel generalizing n with
  | zero =>
    intro i hi
    have : i = 0 := by omega
    simpa [this, firstFree] using h
  | succ fuel ih =>
    intro i hi
    unfold firstFree at h
    split at h
    · rename_i first
      cases i with
      | zero => exact first
      | succ i =>
        have later := ih h i (by omega)
        rwa [Nat.add_assoc, Nat.add_comm 1 i] at later
    · contradiction

/-- A list that holds `k` distinct names has at least `k` items. -/
theorem le_length_of_distinct {numbered : Nat → String}
    (distinct : ∀ i j, numbered i = numbered j → i = j) {k n : Nat} {taken : List String}
    (h : ∀ i < k, numbered (n + i) ∈ taken) : k ≤ taken.length := by
  induction k generalizing n taken with
  | zero => omega
  | succ k ih =>
    have first : numbered n ∈ taken := h 0 (by omega)
    have others : ∀ i < k, numbered (n + 1 + i) ∈ taken.erase (numbered n) := by
      intro i hi
      have ne : numbered (n + 1 + i) ≠ numbered n := fun heq => by
        have := distinct _ _ heq
        omega
      rw [List.mem_erase_of_ne ne, Nat.add_assoc, Nat.add_comm 1 i]
      exact h (i + 1) (by omega)
    have shorter := ih others
    rw [List.length_erase_of_mem first] at shorter
    have : 0 < taken.length := List.length_pos_of_mem first
    omega

/-- An unused name is not taken. -/
theorem unusedName_not_mem {numbered : Nat → String}
    (distinct : ∀ i j, numbered i = numbered j → i = j) (candidate : String) (taken : List String) :
    unusedName candidate numbered taken ∉ taken := by
  unfold unusedName
  split
  · intro h
    have enough := le_length_of_distinct distinct (mem_of_firstFree_mem h)
    omega
  · assumption

theorem numbered_injective (start : String) {i j : Nat}
    (h : start ++ Text.ofNat i = start ++ Text.ofNat j) : i = j := by
  have chars : Text.numeral i = Text.numeral j := by
    have := congrArg String.toList h
    simpa [Text.ofNat, String.toList_append] using this
  rw [← Text.readDigits_numeral i, ← Text.readDigits_numeral j, chars]

end Formwork
