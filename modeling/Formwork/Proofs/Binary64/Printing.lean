import Formwork.Proofs.Binary64.Shortest
import Formwork.Value.Basic

/-!
# Reading the text of a number

However a number is laid out, with a point, with zeros in front or behind, or with an exponent, its text is a
decimal that the reader of numbers takes and that stands for the number's digits. So the text of a number is never
read as an infinity or as the undefined value.
-/
namespace Formwork

namespace Binary64

variable {whole fraction rest : List Char} {e : Int}

/-- What is left after the digits does not go on with a digit or with a point. -/
theorem rest_of_exponent? (read : exponent? rest = some e) :
    rest.takeWhile Char.isDigit = [] ∧ rest.dropWhile Char.isDigit = rest ∧ ∀ s, rest ≠ '.' :: s := by
  cases rest with
  | nil => exact ⟨rfl, rfl, fun _ => nofun⟩
  | cons c s =>
    by_cases mark : c = 'e' ∨ c = 'E'
    · rcases mark with rfl | rfl
      · exact ⟨rfl, rfl, fun _ same => by cases same⟩
      · exact ⟨rfl, rfl, fun _ same => by cases same⟩
    · rw [exponent?, if_neg mark] at read
      cases read

theorem unsignedDecimal?_whole (digits : ∀ c ∈ whole, c.isDigit = true) (ne : whole ≠ [])
    (read : exponent? rest = some e) :
    unsignedDecimal? (whole ++ rest) = some ⟨Text.readDigits 0 whole, e⟩ := by
  obtain ⟨stop, stays, no_point⟩ := rest_of_exponent? read
  have split : splitDecimal (whole ++ rest) = (whole, [], rest) := by
    unfold splitDecimal
    rw [List.takeWhile_append_of_pos digits, List.dropWhile_append_of_pos digits, stop, stays]
    split
    · rename_i s
      exact absurd rfl (no_point s)
    · rw [List.append_nil]
  simp [unsignedDecimal?, split, ne, read]

theorem unsignedDecimal?_point (digits : ∀ c ∈ whole, c.isDigit = true) (ne : whole ≠ [])
    (digits' : ∀ c ∈ fraction, c.isDigit = true) (read : exponent? rest = some e) :
    unsignedDecimal? (whole ++ '.' :: (fraction ++ rest)) =
      some ⟨Text.readDigits 0 (whole ++ fraction), e - fraction.length⟩ := by
  obtain ⟨stop, stays, -⟩ := rest_of_exponent? read
  have split : splitDecimal (whole ++ '.' :: (fraction ++ rest)) = (whole, fraction, rest) := by
    have point : Char.isDigit '.' = false := by decide
    unfold splitDecimal
    rw [List.takeWhile_append_of_pos digits, List.dropWhile_append_of_pos digits]
    simp [point, List.takeWhile_append_of_pos digits', List.dropWhile_append_of_pos digits', stop, stays]
  simp [unsignedDecimal?, split, ne, read]

theorem toLower_of_isDigit {c : Char} (digit : c.isDigit = true) : c.toLower = c := by
  unfold Char.toLower
  simp only [Char.isDigit, Bool.and_eq_true, decide_eq_true_eq] at digit
  split
  · rename_i upper
    have := UInt32.le_trans upper.1 digit.2
    simp at this
  · rfl

/-- A text that begins with a digit and stands for a moderate decimal is read as a number. -/
theorem exists_ofUnsigned? {c : Char} {s : List Char} {d : Decimal} (digit : c.isDigit = true)
    (read : unsignedDecimal? (c :: s) = some d) (moderate : d.Moderate) (negative : Bool) :
    ∃ x, ofUnsigned? negative (c :: s) = some (.finite x) := by
  have no_word : c ≠ 'i' ∧ c ≠ 'n' := by
    constructor
    · rintro rfl
      cases digit
    · rintro rfl
      cases digit
  obtain ⟨x, finite⟩ := moderate.exists_read negative
  refine ⟨x, ?_⟩
  simp [ofUnsigned?, toLower_of_isDigit digit, no_word, read, finite]

theorem exists_ofText? {c : Char} {s : List Char} {d : Decimal} (digit : c.isDigit = true)
    (read : unsignedDecimal? (c :: s) = some d) (moderate : d.Moderate) :
    (∃ x, ofText? (String.ofList (c :: s)) = some (.finite x)) ∧
      ∃ x, ofText? (String.ofList ('-' :: c :: s)) = some (.finite x) := by
  have unsigned : c ≠ '-' ∧ c ≠ '+' := by
    constructor
    · rintro rfl
      cases digit
    · rintro rfl
      cases digit
  constructor
  · obtain ⟨x, finite⟩ := exists_ofUnsigned? digit read moderate false
    refine ⟨x, ?_⟩
    unfold ofText?
    rw [String.toList_ofList]
    split
    · rename_i same
      exact absurd (List.cons.inj same).1 unsigned.1
    · rename_i same
      exact absurd (List.cons.inj same).1 unsigned.2
    · exact finite
  · obtain ⟨x, finite⟩ := exists_ofUnsigned? digit read moderate true
    refine ⟨x, ?_⟩
    unfold ofText?
    rw [String.toList_ofList]
    exact finite

end Binary64

namespace Text

theorem readDigits_zeros (acc n : Nat) : readDigits acc (List.replicate n '0') = acc * 10 ^ n := by
  induction n generalizing acc with
  | zero => simp [readDigits]
  | succ n ih =>
    rw [List.replicate_succ, readDigits, List.foldl_cons]
    have rest := ih (acc * 10 + digitValue '0')
    rw [readDigits] at rest
    rw [rest, Nat.pow_succ]
    have zero : digitValue '0' = 0 := by decide
    rw [zero, Nat.add_zero]
    ring

theorem isDigit_of_mem_zeros {n : Nat} {c : Char} (h : c ∈ List.replicate n '0') : c.isDigit = true := by
  rw [List.eq_of_mem_replicate h]
  rfl

end Text

/-- The same decimal with one place after the point. -/
theorem Decimal.Moderate.more_places {d : Decimal} (h : d.Moderate) (whole : 0 ≤ d.exponent) :
    Decimal.Moderate ⟨d.digits * 10 ^ (d.exponent.toNat + 1), -1⟩ := by
  obtain ⟨digits, exponent⟩ := d
  obtain ⟨n, rfl⟩ := Int.eq_ofNat_of_zero_le whole
  have below := h.below
  simp only [Int.toNat_natCast, Int.toNat_neg_natCast] at below ⊢
  refine ⟨by simp only; omega, ?_⟩
  have one : (-1 : Int).toNat = 0 ∧ (-(-1) : Int).toNat = 1 := ⟨rfl, rfl⟩
  simp only
  rw [one.1, one.2]
  calc 2 * (digits * 10 ^ (n + 1) * 10 ^ 0 * Binary64.unit) = 10 * (2 * (digits * 10 ^ n * Binary64.unit)) := by ring
    _ < 10 * (Binary64.overflow * 10 ^ 0) := Nat.mul_lt_mul_of_pos_left below (by decide)
    _ = Binary64.overflow * 10 ^ 1 := by ring

/-- The number is one that a value can hold: an integer of 64 bits, or a number of the format. -/
def Number.Fits : Number → Prop
  | .int z => z.natAbs < Json.Numeral.wordLimit
  | .float x => x.InFormat

namespace Json

open Binary64

theorem exponent?_nil : exponent? [] = some 0 := rfl

theorem exponent?_signed (e : Int) :
    exponent? ('e' :: (if e < 0 then '-' else '+') :: Text.numeral e.natAbs) = some e := by
  have mark : ('e' = 'e' ∨ 'e' = 'E') := .inl rfl
  have read := Text.natOfChars?_numeral e.natAbs
  rw [exponent?, if_pos mark]
  split
  · simp only [signedInt?, read, Option.bind_eq_bind, Option.bind_some, Option.pure_def, Option.map_some,
      Option.some.injEq]
    omega
  · simp only [signedInt?, read, Option.bind_eq_bind, Option.bind_some, Option.pure_def, Option.map_some,
      Option.some.injEq]
    omega

theorem ofList_exponent (mantissa : List Char) (e : Int) :
    String.ofList mantissa ++ "e" ++ (if e < 0 then "-" else "+") ++ Text.ofNat e.natAbs =
      String.ofList (mantissa ++ 'e' :: (if e < 0 then '-' else '+') :: Text.numeral e.natAbs) := by
  apply String.toList_injective
  split <;> simp [Text.ofNat]

/-- The text begins with a digit and stands for a decimal that is read as a number. -/
def StandsForModerate (text : String) : Prop :=
  ∃ c s d, text = String.ofList (c :: s) ∧ c.isDigit = true ∧ unsignedDecimal? (c :: s) = some d ∧ d.Moderate

section Layouts

variable {c : Char} {s : List Char} {n : Nat} {exponent : Int}
  (digits : ∀ x ∈ c :: s, x.isDigit = true) (value : Text.readDigits 0 (c :: s) = n)
  (moderate : Decimal.Moderate ⟨n, exponent⟩)

include digits value moderate

theorem standsForModerate_zeros_behind (whole : 0 ≤ exponent) :
    StandsForModerate (String.ofList (c :: s ++ List.replicate exponent.toNat '0' ++ ['.', '0'])) := by
  obtain ⟨digit, others⟩ := List.forall_mem_cons.1 digits
  have row : ∀ x ∈ c :: (s ++ List.replicate exponent.toNat '0'), x.isDigit = true :=
    List.forall_mem_cons.2 ⟨digit, List.forall_mem_append.2 ⟨others, fun x => Text.isDigit_of_mem_zeros⟩⟩
  have zero : ∀ x ∈ ['0'], x.isDigit = true := by simp
  have read := unsignedDecimal?_point row (List.cons_ne_nil _ _) zero exponent?_nil
  have scaled : Text.readDigits 0 (c :: (s ++ List.replicate exponent.toNat '0') ++ ['0']) =
      n * 10 ^ (exponent.toNat + 1) := by
    have shape : c :: (s ++ List.replicate exponent.toNat '0') ++ ['0'] =
        (c :: s) ++ List.replicate (exponent.toNat + 1) '0' := by
      rw [List.replicate_succ']
      simp
    rw [shape, Text.readDigits_append, value, Text.readDigits_zeros]
  rw [scaled] at read
  refine ⟨c, _, _, ?_, digit, read, moderate.more_places whole⟩
  simp

theorem standsForModerate_point (k : Nat) (places : (s.length : Int) + exponent = k) (within : k ≤ s.length) :
    StandsForModerate (String.ofList ((c :: s).take (k + 1) ++ '.' :: (c :: s).drop (k + 1))) := by
  obtain ⟨digit, others⟩ := List.forall_mem_cons.1 digits
  have ahead : ∀ x ∈ c :: s.take k, x.isDigit = true :=
    List.forall_mem_cons.2 ⟨digit, fun x hx => others x (List.mem_of_mem_take hx)⟩
  have behind : ∀ x ∈ s.drop k, x.isDigit = true := fun x hx => others x (List.mem_of_mem_drop hx)
  have read := unsignedDecimal?_point ahead (List.cons_ne_nil _ _) behind exponent?_nil
  rw [List.append_nil, List.cons_append, List.cons_append, List.take_append_drop, value, List.length_drop] at read
  rw [List.take_succ_cons, List.drop_succ_cons]
  refine ⟨c, _, ⟨n, exponent⟩, rfl, digit, read.trans ?_, moderate⟩
  rw [Option.some.injEq, Decimal.mk.injEq]
  omega

theorem standsForModerate_zeros_ahead (k : Nat) (places : (s.length : Int) + 1 + exponent = -k) :
    StandsForModerate (String.ofList ('0' :: '.' :: List.replicate k '0' ++ c :: s)) := by
  have behind : ∀ x ∈ List.replicate k '0' ++ c :: s, x.isDigit = true :=
    List.forall_mem_append.2 ⟨fun x => Text.isDigit_of_mem_zeros, digits⟩
  have ahead : ∀ x ∈ ['0'], x.isDigit = true := by simp
  have read := unsignedDecimal?_point ahead (List.cons_ne_nil _ _) behind exponent?_nil
  have zero : Text.readDigits 0 ['0'] = 0 := by decide
  rw [List.append_nil, Text.readDigits_append, Text.readDigits_append, zero, Text.readDigits_zeros, Nat.zero_mul,
    value, List.length_append, List.length_replicate] at read
  refine ⟨'0', _, ⟨n, exponent⟩, rfl, rfl, read.trans ?_, moderate⟩
  rw [List.length_cons, Option.some.injEq, Decimal.mk.injEq]
  omega

theorem standsForModerate_exponent {e : Int} (places : (s.length : Int) + exponent = e) :
    StandsForModerate (String.ofList (match c :: s with
      | [c] => [c]
      | c :: rest => c :: '.' :: rest
      | [] => []) ++ "e" ++ (if e < 0 then "-" else "+") ++ Text.ofNat e.natAbs) := by
  obtain ⟨digit, others⟩ := List.forall_mem_cons.1 digits
  cases s with
  | nil =>
    have read := unsignedDecimal?_whole digits (List.cons_ne_nil _ _) (exponent?_signed e)
    rw [value] at read
    refine ⟨c, _, ⟨n, exponent⟩, ofList_exponent [c] e, digit, read.trans ?_, moderate⟩
    rw [List.length_nil] at places
    rw [Option.some.injEq, Decimal.mk.injEq]
    omega
  | cons c' s =>
    have first : ∀ x ∈ [c], x.isDigit = true := by simpa using digit
    have read := unsignedDecimal?_point first (List.cons_ne_nil _ _) others (exponent?_signed e)
    rw [List.singleton_append, List.singleton_append, value] at read
    refine ⟨c, _, ⟨n, exponent⟩, ofList_exponent (c :: '.' :: c' :: s) e, digit, read.trans ?_, moderate⟩
    rw [Option.some.injEq, Decimal.mk.injEq]
    omega

end Layouts

theorem standsForModerate_decimalText {d : Decimal} (moderate : d.Moderate) :
    StandsForModerate (decimalText d) := by
  obtain ⟨n, exponent⟩ := d
  have digits : ∀ c ∈ Text.numeral n, c.isDigit = true := fun c => Text.isDigit_of_mem_numeral
  have value := Text.readDigits_numeral n
  obtain ⟨c, s, form⟩ := List.exists_cons_of_ne_nil (Text.numeral_ne_nil n)
  unfold decimalText
  dsimp only
  rw [form] at digits value ⊢
  have length : ((c :: s).length : Int) = s.length + 1 := by simp
  split
  · rename_i whole
    exact standsForModerate_zeros_behind digits value moderate whole.1
  rename_i long
  split
  · rename_i within
    obtain ⟨k, point⟩ : ∃ k : Nat, ((c :: s).length : Int) + exponent = (k + 1 : Nat) :=
      ⟨(((c :: s).length : Int) + exponent - 1).toNat, by omega⟩
    rw [point, Int.toNat_natCast]
    exact standsForModerate_point digits value moderate k (by omega) (by omega)
  split
  · exact standsForModerate_zeros_ahead digits value moderate _ (by omega)
  · exact standsForModerate_exponent digits value moderate (by omega)

/-- Written with or without a sign, a moderate decimal is read as a number. -/
theorem exists_ofText?_decimalText {d : Decimal} (moderate : d.Moderate) (negative : Bool) :
    ∃ x, Binary64.ofText? ((if negative then "-" else "") ++ decimalText d) = some (.finite x) := by
  obtain ⟨c, s, d', text, digit, read, moderate'⟩ := standsForModerate_decimalText moderate
  obtain ⟨plain, signed⟩ := exists_ofText? digit read moderate'
  rw [text]
  cases negative with
  | false => simpa using plain
  | true =>
    have text' : "-" ++ String.ofList (c :: s) = String.ofList ('-' :: c :: s) :=
      String.toList_injective (by simp)
    simpa [text'] using signed

theorem moderate_of_lt {n : Nat} (h : n < Numeral.wordLimit) : Decimal.Moderate ⟨n, 0⟩ := by
  have limit : 2 * (Numeral.wordLimit * unit) ≤ overflow := by decide +kernel
  have below := Nat.mul_lt_mul_of_pos_right h unit_pos
  refine ⟨by simp, ?_⟩
  simp only [Int.toNat_zero, Int.neg_zero, Nat.pow_zero, Nat.mul_one]
  omega

theorem exists_ofText?_ofInt {z : Int} (h : z.natAbs < Numeral.wordLimit) :
    ∃ x, Binary64.ofText? (Text.ofInt z) = some (.finite x) := by
  have natural {n : Nat} (small : n < Numeral.wordLimit) :
      (∃ x, Binary64.ofText? (Text.ofNat n) = some (.finite x)) ∧
        ∃ x, Binary64.ofText? ("-" ++ Text.ofNat n) = some (.finite x) := by
    have digits : ∀ c ∈ Text.numeral n, c.isDigit = true := fun c => Text.isDigit_of_mem_numeral
    have read := unsignedDecimal?_whole digits (Text.numeral_ne_nil n) exponent?_nil
    rw [List.append_nil, Text.readDigits_numeral] at read
    have text : "-" ++ Text.ofNat n = String.ofList ('-' :: Text.numeral n) :=
      String.toList_injective (by simp [Text.ofNat])
    rw [text, Text.ofNat]
    obtain ⟨c, s, form⟩ := List.exists_cons_of_ne_nil (Text.numeral_ne_nil n)
    rw [form] at digits read ⊢
    exact exists_ofText? (digits c List.mem_cons_self) read (moderate_of_lt small)
  cases z with
  | ofNat n => exact (natural h).1
  | negSucc n => exact (natural h).2

theorem exists_ofText?_text {n : Number} (h : n.Fits) : ∃ x, Binary64.ofText? n.text = some (.finite x) := by
  cases n with
  | int z => exact exists_ofText?_ofInt h
  | float x =>
    rw [Number.text, Binary64.text]
    by_cases zero : x.isZero = true
    · have text : "0.0" = decimalText ⟨0, 0⟩ := by decide +kernel
      rw [if_pos zero, text]
      exact exists_ofText?_decimalText (moderate_of_lt (by decide +kernel)) x.negative
    · rw [if_neg zero]
      exact exists_ofText?_decimalText h.moderate_shortest x.negative

/-- The text of a number, with its fraction or without, is read as a number. -/
theorem exists_ofText?_numberText {n : Number} (h : n.Fits) :
    ∃ x, Binary64.ofText? (numberText n) = some (.finite x) := by
  unfold numberText
  extract_lets x
  split
  · rename_i small
    refine exists_ofText?_ofInt (Nat.lt_trans (m := Nat.pow 10 15) ?_ (by decide +kernel))
    simp only [Bool.and_eq_true, decide_eq_true_eq] at small
    split <;> omega
  · exact exists_ofText?_text h

end Json

end Formwork
