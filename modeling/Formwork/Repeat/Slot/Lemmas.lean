import Formwork.Repeat.Slot

/-!
# Reading slots back

A name written for a slot is read as that slot, whatever stands after the underscore.
-/
namespace Formwork.Slot

theorem isPrefixOf?_append (stem tail : List Char) : stem.isPrefixOf? (stem ++ tail) = some tail := by
  induction stem with
  | nil => rfl
  | cons c stem ih =>
    have step : (c :: stem).isPrefixOf? (c :: stem ++ tail) =
        if c == c then stem.isPrefixOf? (stem ++ tail) else none := rfl
    rw [step, ih, beq_self_eq_true, if_pos rfl]

theorem tail?_append (stem rest : String) : tail? stem (stem ++ rest) = some rest.toList := by
  simp [tail?, isPrefixOf?_append]

theorem takeWhile_append_of_stop {p : Char → Bool} {a b : List Char} {c : Char}
    (ha : ∀ x ∈ a, p x = true) (hc : p c = false) : (a ++ c :: b).takeWhile p = a := by
  induction a with
  | nil => simp [hc]
  | cons x a ih =>
    have head := ha x List.mem_cons_self
    have rest := ih fun y hy => ha y (List.mem_cons_of_mem _ hy)
    simpa [head] using rest

theorem dropWhile_append_of_stop {p : Char → Bool} {a b : List Char} {c : Char}
    (ha : ∀ x ∈ a, p x = true) (hc : p c = false) : (a ++ c :: b).dropWhile p = c :: b := by
  induction a with
  | nil => simp [hc]
  | cons x a ih =>
    have head := ha x List.mem_cons_self
    have rest := ih fun y hy => ha y (List.mem_cons_of_mem _ hy)
    simpa [head] using rest

theorem takeWhile_underscore {row rest : List Char} (plain : ∀ c ∈ row, c ≠ '_') :
    (row ++ '_' :: rest).takeWhile (fun c => decide (c ≠ '_')) = row :=
  takeWhile_append_of_stop (fun c hc => decide_eq_true (plain c hc)) (by decide)

theorem dropWhile_underscore {row rest : List Char} (plain : ∀ c ∈ row, c ≠ '_') :
    (row ++ '_' :: rest).dropWhile (fun c => decide (c ≠ '_')) = '_' :: rest :=
  dropWhile_append_of_stop (fun c hc => decide_eq_true (plain c hc)) (by decide)

/-- What stands before the first underscore is determined, and what stands after it. -/
theorem eq_of_append_underscore {row row' rest rest' : List Char} (plain : ∀ c ∈ row, c ≠ '_')
    (plain' : ∀ c ∈ row', c ≠ '_') (h : row ++ '_' :: rest = row' ++ '_' :: rest') :
    row = row' ∧ rest = rest' := by
  have front := congrArg (List.takeWhile fun c => decide (c ≠ '_')) h
  rw [takeWhile_underscore plain, takeWhile_underscore plain'] at front
  subst front
  exact ⟨rfl, (List.cons.inj (List.append_cancel_left h)).2⟩

theorem ne_underscore_of_isDigit {c : Char} (h : c.isDigit = true) : c ≠ '_' := by
  rintro rfl
  exact absurd h (by decide)

theorem name_eq (stem : String) (index : Nat) (rest : String) :
    name stem ⟨index, rest⟩ = stem ++ String.ofList (Text.numeral index ++ '_' :: rest.toList) := by
  apply String.toList_inj.1
  simp [name, Frame.opening, Text.ofNat, String.toList_append]

theorem indexOfChars?_numeral {n : Nat} (h : n < indexLimit) :
    indexOfChars? (Text.numeral n) = some n := by
  simp [indexOfChars?, Text.natOfChars?_numeral, h]

theorem indexOfChars?_eq_some_iff {digits : List Char} {n : Nat} :
    indexOfChars? digits = some n ↔
      (digits ≠ [] ∧ (∀ c ∈ digits, c.isDigit = true) ∧ Text.readDigits 0 digits = n) ∧ n < indexLimit := by
  rw [indexOfChars?, Option.filter_eq_some_iff, Text.natOfChars?_eq_some_iff, decide_eq_true_iff]

theorem ne_underscore_of_mem_numeral {n : Nat} : ∀ c ∈ Text.numeral n, c ≠ '_' :=
  fun _ hc => ne_underscore_of_isDigit (Text.isDigit_of_mem_numeral hc)

/-- A slot is read back from its name. -/
theorem ofName?_name (stem : String) {s : Slot} (h : s.index < indexLimit) :
    ofName? stem (name stem s) = some s := by
  obtain ⟨index, rest⟩ := s
  unfold ofName?
  rw [name_eq, tail?_append]
  simp only [Option.bind_eq_bind, Option.bind_some, String.toList_ofList]
  rw [takeWhile_underscore ne_underscore_of_mem_numeral,
    dropWhile_underscore ne_underscore_of_mem_numeral, indexOfChars?_numeral h]
  simp

end Formwork.Slot
