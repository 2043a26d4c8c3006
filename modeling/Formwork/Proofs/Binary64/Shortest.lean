import Formwork.Json.Numeral
import Formwork.Proofs.Binary64
import Mathlib.Tactic.Positivity
import Mathlib.Tactic.Ring

/-!
# The shortest decimal of a number

The decimal that stands for a number of the format lies within half a gap of it, so it is nearer to that number than
to the first one beyond the format, and reading it gives a number. The same holds of the exact value, which is
taken where no short decimal is found, and of what either is without the zeros at its end.
-/
namespace Formwork

namespace Binary64

theorem gapExponent_le {n k : Nat} (h : n < 2 ^ 53 * 2 ^ k) : gapExponent n ≤ k := by
  unfold gapExponent
  rcases Nat.eq_zero_or_pos n with zero | pos
  · rw [zero]
    simp
  · rw [← Nat.pow_add] at h
    have := (Nat.log2_lt (by omega)).2 h
    omega

/-- What lies below the middle between two neighbours is not rounded up. -/
theorem roundHalfEven_le_of_lt {num den m : Nat} (h : 2 * num < (2 * m + 1) * den) :
    roundHalfEven num den ≤ m := by
  have parts := Nat.div_add_mod num den
  have expanded : (2 * m + 1) * den = 2 * (den * m) + den := by ring
  have quotient : num / den ≤ m := by
    refine Nat.le_of_lt_succ (Nat.div_lt_of_lt_mul ?_)
    rw [Nat.mul_succ]
    omega
  rcases Nat.lt_or_eq_of_le quotient with below | same
  · have := roundHalfEven_le num den
    omega
  · rw [same] at parts
    unfold roundHalfEven
    rw [if_pos (by omega)]
    exact quotient

/-- What lies below the middle between the greatest number and the first one beyond the format is not rounded
beyond the format. -/
theorem roundUnits_lt {k num den : Nat} (h : 2 * num < (2 ^ 54 - 1) * 2 ^ k * den) :
    roundUnits num den < 2 ^ 53 * 2 ^ k := by
  have below : num / den < 2 ^ 53 * 2 ^ k := by
    refine Nat.div_lt_of_lt_mul (Nat.lt_of_mul_lt_mul_left (a := 2) (Nat.lt_of_lt_of_le h ?_))
    calc (2 ^ 54 - 1) * 2 ^ k * den ≤ 2 ^ 54 * 2 ^ k * den :=
          Nat.mul_le_mul_right _ (Nat.mul_le_mul_right _ (by decide))
      _ = 2 * (den * (2 ^ 53 * 2 ^ k)) := by ring
  have gap := gapExponent_le below
  obtain ⟨j, rfl⟩ := Nat.exists_eq_add_of_le gap
  unfold roundUnits
  simp only [Nat.pow_eq]
  generalize gapExponent (num / den) = e at h ⊢
  have positive : 0 < 2 ^ 53 * 2 ^ j := by positivity
  have rounded : roundHalfEven num (den * 2 ^ e) ≤ 2 ^ 53 * 2 ^ j - 1 := by
    refine roundHalfEven_le_of_lt (Nat.lt_of_lt_of_le h ?_)
    have odd : 2 * (2 ^ 53 * 2 ^ j - 1) + 1 = 2 ^ 54 * 2 ^ j - 1 := by omega
    have least : 1 ≤ 2 ^ j := Nat.one_le_two_pow
    calc (2 ^ 54 - 1) * 2 ^ (e + j) * den = (2 ^ 54 * 2 ^ j - 2 ^ j) * (den * 2 ^ e) := by
          rw [Nat.pow_add, ← Nat.sub_one_mul]; ring
      _ ≤ (2 ^ 54 * 2 ^ j - 1) * (den * 2 ^ e) := Nat.mul_le_mul_right _ (by omega)
      _ = (2 * (2 ^ 53 * 2 ^ j - 1) + 1) * (den * 2 ^ e) := by rw [odd]
  calc roundHalfEven num (den * 2 ^ e) * 2 ^ e < 2 ^ 53 * 2 ^ j * 2 ^ e :=
        Nat.mul_lt_mul_of_pos_right (by omega) (by positivity)
    _ = 2 ^ 53 * 2 ^ (e + j) := by rw [Nat.pow_add]; ring

/-- Twice the middle between the greatest number of the format and the first one beyond it. -/
def overflow : Nat := (2 ^ 54 - 1) * 2 ^ 2045

/-- The large numbers are compared here once, and only named afterwards. -/
theorem exists_overflow_eq : ∃ k, overflow = (2 ^ 54 - 1) * 2 ^ k ∧ unitLimit = 2 ^ 53 * 2 ^ k :=
  ⟨2045, rfl, by decide +kernel⟩

theorem overflow_le : overflow ≤ 2 * (2 ^ 1024 * unit) := by decide +kernel

end Binary64

/-! ## Powers of two and of ten -/

/-- Ten is more than the power `93 / 28` of two. -/
theorem log_lt_of_mul_pow_ten_lt {a b e : Nat} (h : 2 ^ a * 10 ^ e < 2 ^ b) : 28 * a + 93 * e < 28 * b := by
  have step : 2 ^ (28 * a + 93 * e) < 2 ^ (28 * b) := calc
    2 ^ (28 * a + 93 * e) = (2 ^ a) ^ 28 * (2 ^ 93) ^ e := by
      rw [Nat.pow_add, Nat.mul_comm 28 a, Nat.pow_mul, Nat.pow_mul]
    _ ≤ (2 ^ a) ^ 28 * (10 ^ 28) ^ e := Nat.mul_le_mul_left _ (Nat.pow_le_pow_left (by decide) e)
    _ = (2 ^ a * 10 ^ e) ^ 28 := by
      rw [Nat.mul_pow, ← Nat.pow_mul 10 e 28, Nat.mul_comm e 28, Nat.pow_mul 10 28 e]
    _ < (2 ^ b) ^ 28 := Nat.pow_lt_pow_left h (by decide)
    _ = 2 ^ (28 * b) := by rw [← Nat.pow_mul, Nat.mul_comm b 28]
  exact (Nat.pow_lt_pow_iff_right (by decide)).1 step

/-- Ten is less than the power `103 / 31` of two. -/
theorem log_lt_of_lt_mul_pow_ten {a b e : Nat} (h : 2 ^ a < 2 ^ b * 10 ^ e) : 31 * a < 31 * b + 103 * e := by
  have step : 2 ^ (31 * a) < 2 ^ (31 * b + 103 * e) := calc
    2 ^ (31 * a) = (2 ^ a) ^ 31 := by rw [← Nat.pow_mul, Nat.mul_comm a 31]
    _ < (2 ^ b * 10 ^ e) ^ 31 := Nat.pow_lt_pow_left h (by decide)
    _ = (2 ^ b) ^ 31 * (10 ^ 31) ^ e := by
      rw [Nat.mul_pow, ← Nat.pow_mul 10 e 31, Nat.mul_comm e 31, Nat.pow_mul 10 31 e]
    _ ≤ (2 ^ b) ^ 31 * (2 ^ 103) ^ e := Nat.mul_le_mul_left _ (Nat.pow_le_pow_left (by decide) e)
    _ = 2 ^ (31 * b + 103 * e) := by
      rw [Nat.pow_add, Nat.mul_comm 31 b, Nat.pow_mul, Nat.pow_mul]
  exact (Nat.pow_lt_pow_iff_right (by decide)).1 step

namespace Decimal

open Binary64

/-- The decimal is nearer to a number of the format than to the first one beyond it, and has no more places than
such a number. -/
structure Moderate (d : Decimal) : Prop where
  low : -1074 ≤ d.exponent
  below : 2 * (d.digits * 10 ^ d.exponent.toNat * unit) < overflow * 10 ^ (-d.exponent).toNat

/-- The power of ten next to such a decimal is not taken for one beyond the format. -/
theorem Moderate.magnitude_le {d : Decimal} (h : d.Moderate) (pos : d.digits ≠ 0) : d.magnitude ≤ 311 := by
  obtain ⟨digits, exponent⟩ := d
  obtain ⟨low, below⟩ := h
  simp only at low below pos
  have limit := overflow_le
  generalize top_eq : 1024 = top at limit
  have bound : 2 ^ digits.log2 * 10 ^ exponent.toNat < 2 ^ top * 10 ^ (-exponent).toNat := by
    refine Nat.lt_of_le_of_lt (Nat.mul_le_mul_right _ (Nat.log2_self_le pos)) ?_
    refine Nat.lt_of_mul_lt_mul_right (a := 2 * unit) ?_
    calc digits * 10 ^ exponent.toNat * (2 * unit) = 2 * (digits * 10 ^ exponent.toNat * unit) := by ring
      _ < overflow * 10 ^ (-exponent).toNat := below
      _ ≤ 2 * (2 ^ top * unit) * 10 ^ (-exponent).toNat := Nat.mul_le_mul_right _ limit
      _ = 2 ^ top * 10 ^ (-exponent).toNat * (2 * unit) := by ring
  unfold magnitude
  simp only
  generalize digits.log2 = log at bound ⊢
  rcases Int.le_total 0 exponent with up | down
  · obtain ⟨e, rfl⟩ := Int.eq_ofNat_of_zero_le up
    rw [Int.toNat_natCast, Int.toNat_neg_natCast, Nat.pow_zero, Nat.mul_one] at bound
    have logs := log_lt_of_mul_pow_ten_lt bound
    omega
  · obtain ⟨e, nonneg⟩ := Int.eq_ofNat_of_zero_le (Int.neg_nonneg.2 down)
    obtain rfl : exponent = -e := by omega
    rw [Int.toNat_neg_natCast, Int.neg_neg, Int.toNat_natCast, Nat.pow_zero, Nat.mul_one] at bound
    have logs := log_lt_of_lt_mul_pow_ten bound
    omega

/-- Such a decimal is read as a number. -/
theorem Moderate.exists_read {d : Decimal} (h : d.Moderate) (negative : Bool) :
    ∃ x, ofDecimal? negative d = some x := by
  unfold ofDecimal?
  split
  · exact ⟨_, rfl⟩
  · rename_i positive
    have pos : d.digits ≠ 0 := fun zero => positive (by simp [zero])
    rw [if_neg (by have := h.magnitude_le pos; omega)]
    have fits : roundUnits (d.digits * Nat.pow 10 d.exponent.toNat * unit) (Nat.pow 10 (-d.exponent).toNat) <
        unitLimit := by
      obtain ⟨k, edge, limit⟩ := exists_overflow_eq
      have below := h.below
      rw [edge] at below
      rw [limit]
      exact roundUnits_lt below
    simp only [ofRatio?, ofUnits?]
    rw [if_pos fits]
    exact ⟨_, rfl⟩

/-- The same decimal with one zero less. -/
theorem Moderate.drop_zero {q : Nat} {exponent : Int} (h : Moderate ⟨10 * q, exponent⟩) :
    Moderate ⟨q, exponent + 1⟩ := by
  obtain ⟨low, below⟩ := h
  refine ⟨by simp only at low ⊢; omega, ?_⟩
  simp only at below ⊢
  rcases Int.lt_or_le exponent 0 with down | up
  · obtain ⟨n, rfl⟩ : ∃ n : Nat, exponent = -((n + 1 : Nat) : Int) := ⟨(-exponent).toNat - 1, by omega⟩
    have up : (-((n + 1 : Nat) : Int) + 1).toNat = 0 := by omega
    have down : (-(-((n + 1 : Nat) : Int) + 1)).toNat = n := by omega
    rw [Int.toNat_neg_natCast, Int.neg_neg, Int.toNat_natCast] at below
    rw [up, down]
    refine Nat.lt_of_mul_lt_mul_left (a := 10) ?_
    calc 10 * (2 * (q * 10 ^ 0 * unit)) = 2 * (10 * q * 10 ^ 0 * unit) := by ring
      _ < overflow * 10 ^ (n + 1) := below
      _ = 10 * (overflow * 10 ^ n) := by ring
  · obtain ⟨n, rfl⟩ := Int.eq_ofNat_of_zero_le up
    have up : ((n : Int) + 1).toNat = n + 1 := by omega
    have down : (-((n : Int) + 1)).toNat = 0 := by omega
    rw [Int.toNat_neg_natCast, Int.toNat_natCast] at below
    rw [up, down]
    calc 2 * (q * 10 ^ (n + 1) * unit) = 2 * (10 * q * 10 ^ n * unit) := by ring
      _ < overflow * 10 ^ 0 := below

theorem Moderate.stripZeros {d : Decimal} (h : d.Moderate) (fuel : Nat) : (stripZeros fuel d).Moderate := by
  induction fuel generalizing d with
  | zero => exact h
  | succ fuel ih =>
    unfold Decimal.stripZeros
    split
    · rename_i ends
      obtain ⟨digits, exponent⟩ := d
      obtain ⟨q, rfl⟩ := Nat.dvd_of_mod_eq_zero ends.2
      refine ih ?_
      rw [Nat.mul_div_cancel_left q (by decide)]
      exact h.drop_zero
    · exact h

end Decimal

namespace Binary64

/-- A number of the format is a number of gaps, none of which is wider than that before the end of the format. -/
theorem exists_gaps {units : Nat} (format : HasUnits units) (limit : units < unitLimit) :
    ∃ m k, units = 2 ^ gapExponent units * m ∧ m < 2 ^ 53 ∧ 2 ^ gapExponent units ≤ 2 ^ k ∧
      overflow = (2 ^ 54 - 1) * 2 ^ k := by
  obtain ⟨k, edge, limit_eq⟩ := exists_overflow_eq
  rw [limit_eq] at limit
  obtain ⟨m, whole⟩ := pow_gapExponent_dvd format
  rw [Nat.pow_eq] at whole
  refine ⟨m, k, whole, ?_, Nat.pow_le_pow_right (by decide) (gapExponent_le limit), edge⟩
  have below := lt_pow_gapExponent units
  rw [Nat.pow_eq, Nat.pow_eq] at below
  generalize 2 ^ gapExponent units = gap at whole below
  rw [whole, Nat.mul_comm] at below
  exact Nat.lt_of_mul_lt_mul_right below

/-- A decimal that reads back as a number of the format is no nearer to one beyond it: the greatest number of the
format is odd, so no decimal on its upper edge reads back as it. -/
theorem below_of_readsBack {units : Nat} (format : HasUnits units) (limit : units < unitLimit) {d : Decimal}
    (h : readsBack units d = true) :
    2 * (d.digits * 10 ^ d.exponent.toNat * unit) < overflow * 10 ^ (-d.exponent).toNat := by
  obtain ⟨m, k, whole, small, narrow, edge⟩ := exists_gaps format limit
  have positive : 0 < 2 ^ gapExponent units := Nat.two_pow_pos _
  have reach : 0 < 10 ^ (-d.exponent).toNat := Nat.pow_pos (by decide)
  unfold readsBack at h
  simp only [Nat.pow_eq, Bool.and_eq_true, Bool.or_eq_true, decide_eq_true_eq] at h
  obtain ⟨-, high⟩ := h
  rw [edge]
  generalize 2 ^ gapExponent units = gap, 2 ^ k = widest at *
  obtain rfl := whole
  rw [Nat.mul_div_cancel_left m positive] at high
  have value : 4 * d.digits * unit * 10 ^ d.exponent.toNat = 4 * (d.digits * 10 ^ d.exponent.toNat * unit) := by
    ring
  have middle : (4 * (gap * m) + 2 * gap) * 10 ^ (-d.exponent).toNat =
      (4 * m + 2) * (gap * 10 ^ (-d.exponent).toNat) := by ring
  rw [value, middle] at high
  generalize d.digits * 10 ^ d.exponent.toNat * unit = v, 10 ^ (-d.exponent).toNat = scale at *
  have wide : (4 * m + 2) * (gap * scale) ≤ (4 * m + 2) * (widest * scale) :=
    Nat.mul_le_mul_left _ (Nat.mul_le_mul_right _ narrow)
  rw [Nat.mul_assoc]
  rcases high with below | ⟨even, same⟩
  · have most : (4 * m + 2) * (widest * scale) ≤ (2 ^ 55 - 2) * (widest * scale) :=
      Nat.mul_le_mul_right _ (by omega)
    omega
  · have most : (4 * m + 2) * (widest * scale) ≤ (2 ^ 55 - 6) * (widest * scale) :=
      Nat.mul_le_mul_right _ (by omega)
    have : 0 < widest * scale := Nat.mul_pos (Nat.lt_of_lt_of_le positive narrow) reach
    omega

theorem readsBack_of_onGrid? {units : Nat} {exponent : Int} {d : Decimal} (h : onGrid? units exponent = some d) :
    d.exponent = exponent ∧ readsBack units d = true := by
  unfold onGrid? at h
  extract_lets num den below above at h
  have exponents : below.exponent = exponent ∧ above.exponent = exponent := ⟨rfl, rfl⟩
  clear_value num den below above
  split at h
  · rename_i fits
    split at h
    · rename_i both
      obtain rfl := Option.some.inj h
      exact ⟨exponents.2, (Bool.and_eq_true_iff.1 both).1⟩
    · obtain rfl := Option.some.inj h
      exact ⟨exponents.1, fits⟩
  · split at h
    · rename_i fits
      obtain rfl := Option.some.inj h
      exact ⟨exponents.2, fits⟩
    · cases h

theorem decimalScale_low (units : Nat) : -324 ≤ decimalScale units := by
  have least : -324 ≤ ((units.log2 : Int) - 1074) * 30103 / 100000 := by omega
  unfold decimalScale
  extract_lets guess below
  have least : -324 ≤ guess := least
  clear_value guess below
  split
  · exact least
  · split <;> omega

theorem unit_eq {n : Nat} (places : n = 1074) : unit = Nat.pow 2 n := by
  subst places
  decide +kernel

/-- The exact value of a number of the format is a decimal like that. -/
theorem moderate_exact {units n : Nat} (format : HasUnits units) (limit : units < unitLimit) (places : n = 1074)
    {exponent : Int} (least : exponent = -n) : Decimal.Moderate ⟨units * Nat.pow 5 n, exponent⟩ := by
  subst least
  refine ⟨by simp only; omega, ?_⟩
  obtain ⟨m, k, whole, small, narrow, edge⟩ := exists_gaps format limit
  have exact_unit : Nat.pow 5 n * unit = 10 ^ n := by
    rw [unit_eq places]
    exact (Nat.mul_pow 5 2 n).symm
  rw [Int.neg_neg, Int.toNat_natCast, Int.toNat_neg_natCast, Nat.pow_zero, Nat.mul_one, Nat.mul_assoc,
    exact_unit, edge, ← Nat.mul_assoc]
  refine Nat.mul_lt_mul_of_pos_right ?_ (Nat.pow_pos (by decide))
  have most : 2 ^ gapExponent units * m ≤ 2 ^ k * (2 ^ 53 - 1) := Nat.mul_le_mul narrow (by omega)
  have positive : 0 < 2 ^ k := Nat.two_pow_pos k
  omega

/-- The shortest decimal of a number can be read. -/
theorem InFormat.moderate_shortest {x : Binary64} (h : x.InFormat) : x.shortest.Moderate := by
  unfold shortest
  split
  · obtain ⟨k, edge, -⟩ := exists_overflow_eq
    refine ⟨by decide, ?_⟩
    rw [edge, Nat.zero_mul, Nat.zero_mul, Nat.mul_zero]
    exact Nat.mul_pos (Nat.mul_pos (by decide) (Nat.two_pow_pos k)) (Nat.pow_pos (by decide))
  · refine Decimal.Moderate.stripZeros ?_ 20
    cases found : (List.range' 1 17).findSome? fun n : Nat => onGrid? x.units (decimalScale x.units - n) with
    | none =>
      rw [Option.getD_none]
      generalize places : 1074 = n
      exact moderate_exact h.1 h.2 places.symm (by omega)
    | some d =>
      obtain ⟨n, hn, grid⟩ := List.exists_of_findSome?_eq_some found
      have few := (List.mem_range'_1.1 hn).2
      have low := decimalScale_low x.units
      obtain ⟨exponent, reads⟩ := readsBack_of_onGrid? grid
      rw [Option.getD_some]
      exact ⟨by omega, below_of_readsBack h.1 h.2 reads⟩

end Binary64

end Formwork
