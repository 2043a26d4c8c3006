import Formwork.Binary64.Text

/-!
# The numbers that the format has

A number of the format has at most 53 binary digits before its trailing zeros. Rounding gives such a
number, and leaves one as it is. So a natural number that comes from a number of the format, by leaving out
its fraction, is in the format itself.
-/
namespace Formwork.Binary64

/-- The format has the number of units. -/
def HasUnits (units : Nat) : Prop := ∃ m e, m < Nat.pow 2 53 ∧ units = m * Nat.pow 2 e

/-- The number is one of the format. -/
def InFormat (x : Binary64) : Prop := HasUnits x.units ∧ x.units < unitLimit

theorem hasUnits_of_le {m : Nat} (h : m ≤ Nat.pow 2 53) (e : Nat) : HasUnits (m * Nat.pow 2 e) := by
  rcases Nat.lt_or_eq_of_le h with h | rfl
  · exact ⟨m, e, h, rfl⟩
  · exact ⟨1, 53 + e, by decide, by rw [Nat.one_mul, Nat.pow_eq, Nat.pow_eq, Nat.pow_eq, Nat.pow_add]⟩

/-- Around a number of the format the gap is no wider than the number's own last digit. -/
theorem pow_gapExponent_dvd {n : Nat} (h : HasUnits n) : Nat.pow 2 (gapExponent n) ∣ n := by
  obtain ⟨m, e, small, rfl⟩ := h
  simp only [Nat.pow_eq] at *
  rcases Nat.eq_zero_or_pos (m * 2 ^ e) with zero | pos
  · rw [zero]
    exact Nat.dvd_zero _
  · have below : m * 2 ^ e < 2 ^ (53 + e) := by
      rw [Nat.pow_add]
      exact Nat.mul_lt_mul_of_pos_right small (Nat.two_pow_pos e)
    have log : (m * 2 ^ e).log2 < 53 + e := (Nat.log2_lt (by omega)).2 below
    have gap : gapExponent (m * 2 ^ e) ≤ e := by
      unfold gapExponent
      omega
    exact Nat.dvd_mul_left_of_dvd (Nat.pow_dvd_pow 2 gap) m

theorem roundHalfEven_of_dvd {num den : Nat} (pos : 0 < den) (h : den ∣ num) :
    roundHalfEven num den = num / den := by
  simp [roundHalfEven, Nat.mod_eq_zero_of_dvd h, pos]

theorem roundHalfEven_le (num den : Nat) : roundHalfEven num den ≤ num / den + 1 := by
  simp only [roundHalfEven]
  repeat' split
  all_goals omega

/-- Rounding leaves a number of the format as it is. -/
theorem roundUnits_of_hasUnits {n : Nat} (h : HasUnits n) : roundUnits n 1 = n := by
  have dvd := pow_gapExponent_dvd h
  simp only [roundUnits, Nat.div_one, Nat.one_mul, Nat.pow_eq] at dvd ⊢
  rw [roundHalfEven_of_dvd (Nat.two_pow_pos _) dvd, Nat.div_mul_cancel dvd]

/-- A natural number is less than `2 ^ 53` of the gaps around it. -/
theorem lt_pow_gapExponent (n : Nat) : n < Nat.pow 2 53 * Nat.pow 2 (gapExponent n) := by
  rw [Nat.pow_eq, Nat.pow_eq, ← Nat.pow_add]
  exact Nat.lt_of_lt_of_le Nat.lt_log2_self (Nat.pow_le_pow_right (by decide) (by
    unfold gapExponent
    omega))

/-- Rounding gives a number of the format. -/
theorem hasUnits_roundUnits (num den : Nat) : HasUnits (roundUnits num den) := by
  refine hasUnits_of_le (Nat.le_trans (roundHalfEven_le ..) ?_) _
  have below := lt_pow_gapExponent (num / den)
  simp only [Nat.pow_eq] at below ⊢
  have quotient : num / den / 2 ^ gapExponent (num / den) < 2 ^ 53 :=
    Nat.div_lt_of_lt_mul (by rwa [Nat.mul_comm])
  rw [← Nat.div_div_eq_div_mul]
  omega

theorem inFormat_of_ofUnits? {negative : Bool} {num den : Nat} {x : Binary64}
    (h : ofUnits? negative num den = some x) : InFormat x := by
  simp only [ofUnits?] at h
  split at h
  · rename_i below
    obtain rfl := Option.some.inj h
    exact ⟨hasUnits_roundUnits num den, below⟩
  · cases h

theorem unit_pos : 0 < unit := by decide +kernel

theorem inFormat_zero (negative : Bool) : InFormat (zero negative) :=
  ⟨⟨0, 0, by decide, rfl⟩, by cases negative <;> decide +kernel⟩

/-- The power is named here, so that no later step computes it. -/
theorem exists_unit_eq : ∃ k, unit = Nat.pow 2 k := ⟨1074, by decide +kernel⟩

theorem exists_greatest_eq : ∃ e, unitLimit - Nat.pow 2 2045 = (Nat.pow 2 53 - 1) * Nat.pow 2 e :=
  ⟨2045, by decide +kernel⟩

theorem greatest_lt : unitLimit - Nat.pow 2 2045 < unitLimit := by decide +kernel

theorem inFormat_ofNat (n : Nat) : InFormat (ofNat n) := by
  unfold ofNat
  cases rounded : ofRatio? false n 1 with
  | some x => exact inFormat_of_ofUnits? rounded
  | none =>
    obtain ⟨e, greatest⟩ := exists_greatest_eq
    refine ⟨?_, greatest_lt⟩
    simp only [Option.getD_none, greatest]
    exact hasUnits_of_le (Nat.sub_le ..) e

theorem InFormat.withSign {x : Binary64} (h : InFormat x) (negative : Bool) :
    InFormat { x with negative := negative } := h

theorem truncated_withSign (x : Binary64) (negative : Bool) :
    truncated { x with negative := negative } = x.truncated := rfl

theorem ofInt_natCast (n : Nat) : ofInt n = { ofNat n with negative := false } := by
  simp only [ofInt, Int.natAbs_natCast, Int.natCast_nonneg, Int.not_lt.2, decide_false]

theorem inFormat_ofInt (z : Int) : InFormat (ofInt z) := by
  unfold ofInt
  exact (inFormat_ofNat z.natAbs).withSign _

theorem inFormat_of_ofDecimal? {negative : Bool} {d : Decimal} {x : Binary64}
    (h : ofDecimal? negative d = some x) : InFormat x := by
  unfold ofDecimal? at h
  split at h
  · obtain rfl := Option.some.inj h
    exact inFormat_zero negative
  · split at h
    · cases h
    · exact inFormat_of_ofUnits? h

theorem inFormat_of_ofUnsigned? {negative : Bool} {s : List Char} {x : Binary64}
    (h : ofUnsigned? negative s = some (.finite x)) : InFormat x := by
  simp only [ofUnsigned?] at h
  split at h
  · cases h
  · split at h
    · cases h
    · obtain ⟨d, -, said⟩ := Option.map_eq_some_iff.1 h
      cases read : ofDecimal? negative d with
      | none => simp [read] at said
      | some y =>
        obtain rfl : y = x := by simpa [read] using said
        exact inFormat_of_ofDecimal? read

/-- A finite number read from text is one of the format. -/
theorem inFormat_of_ofText? {s : String} {x : Binary64} (h : ofText? s = some (.finite x)) :
    InFormat x := by
  unfold ofText? at h
  split at h <;> exact inFormat_of_ofUnsigned? h

/-- The multiples of a power of two that are left of numbers of the format are in the format. -/
theorem hasUnits_whole {n : Nat} (h : HasUnits n) (k : Nat) :
    HasUnits (n / Nat.pow 2 k * Nat.pow 2 k) := by
  obtain ⟨m, e, small, rfl⟩ := h
  rcases Nat.le_total k e with wide | narrow
  · have dvd : Nat.pow 2 k ∣ m * Nat.pow 2 e :=
      Nat.dvd_mul_left_of_dvd (Nat.pow_dvd_pow 2 wide) m
    rw [Nat.div_mul_cancel dvd]
    exact ⟨m, e, small, rfl⟩
  · refine ⟨m * Nat.pow 2 e / Nat.pow 2 k, k, ?_, rfl⟩
    have fits : m * Nat.pow 2 e ≤ Nat.pow 2 k * m := by
      rw [Nat.mul_comm]
      exact Nat.mul_le_mul_right m (Nat.pow_le_pow_right (by decide) narrow)
    have below : m * Nat.pow 2 e / Nat.pow 2 k ≤ m := Nat.div_le_of_le_mul fits
    exact Nat.lt_of_le_of_lt below small

/-- What is left of a number of the format without its fraction is a number of the format. -/
theorem hasUnits_truncated {x : Binary64} (h : InFormat x) : HasUnits (x.truncated * unit) := by
  obtain ⟨k, word⟩ := exists_unit_eq
  rw [truncated, word]
  exact hasUnits_whole h.1 k

/-- A natural number below 64 bits that the format has is converted exactly. -/
theorem truncated_ofNat {n : Nat} (word : n < Nat.pow 2 64) (h : HasUnits (n * unit)) :
    (ofNat n).truncated = n := by
  have below : n * unit < unitLimit :=
    Nat.lt_trans (Nat.mul_lt_mul_of_pos_right word unit_pos) (by decide +kernel)
  simp only [ofNat, ofRatio?, ofUnits?, roundUnits_of_hasUnits h, below, if_true, Option.getD_some,
    truncated]
  exact Nat.mul_div_cancel n unit_pos

end Formwork.Binary64
