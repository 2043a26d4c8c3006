import Formwork.Condition
import Formwork.Proofs.Binary64.Printing

/-!
# A value compared with itself

Conditions compare numbers by their distance, dates by day or instant, and everything else by its text, and
each of these holds of a value and itself. Only a text that is read as an infinity or as the undefined value is
equal to nothing, not even to itself. No number is printed so, and no truth value, so a condition that asks for a
scalar is met by that scalar unless it is such a text.
-/
namespace Formwork

namespace Binary64

def Extended.isFinite : Extended → Bool
  | .finite _ => true
  | .infinite _ => false
  | .undefined => false

theorem distance?_self (a : Binary64) : a.distance? a = some (zero false) := by
  have below : 0 < unitLimit := by decide +kernel
  unfold distance? ofUnits?
  rw [Int.sub_self, Int.natAbs_zero, roundUnits_zero]
  exact if_pos below

end Binary64

namespace Json

theorem zero_lt_tolerance : (Binary64.zero false).units < tolerance.units := by decide +kernel

theorem nearlyEqual_of_distance? {a b d : Binary64} (h : a.distance? b = some d) :
    nearlyEqual (.finite a) (.finite b) = decide (d.units < tolerance.units) := by
  unfold nearlyEqual
  generalize tolerance.units = limit
  simp only [h]

theorem nearlyEqual_self (x : Binary64.Extended) : nearlyEqual x x = x.isFinite := by
  cases x with
  | finite a =>
    rw [nearlyEqual_of_distance? (Binary64.distance?_self a)]
    exact decide_eq_true zero_lt_tolerance
  | infinite negative => rfl
  | undefined => rfl

/-- Where a text can be compared with itself as a date, it is equal. -/
theorem eq_true_of_datesEqual?_self {s : String} {equal : Bool} (h : datesEqual? s s = some equal) :
    equal = true := by
  unfold datesEqual? at h
  split at h
  · cases h
  · split at h
    · cases date : Instant.date? s.toList with
      | none => simp [date] at h
      | some found => simpa [date] using h.symm
    · cases instant : Instant.ofText? s with
      | none => simp [instant] at h
      | some found => simpa [instant] using h.symm

def readsFinite (s : String) : Bool := (Binary64.ofText? s).all Binary64.Extended.isFinite

theorem textsEqual_self (s : String) : textsEqual s s = readsFinite s := by
  unfold textsEqual readsFinite
  cases read : Binary64.ofText? s with
  | some x => exact nearlyEqual_self x
  | none =>
    cases dates : datesEqual? s s with
    | some equal => simp [eq_true_of_datesEqual?_self dates]
    | none => simp

/-- Whether the value is a scalar, or an option object that holds one. -/
def isScalar (v : Json) : Bool :=
  match v.unwrap with
  | .arr _ => false
  | .obj _ => false
  | _ => true

/-- Whether the value has no text that is read as an infinity or as the undefined value. -/
def isComparable (v : Json) : Bool := v.scalarText?.all readsFinite

theorem conditionEquals_self (v : Json) : v.conditionEquals v = v.isComparable := by
  have empty : readsFinite "" = true := by decide +kernel
  rw [conditionEquals, textsEqual_self, isComparable]
  cases v.scalarText? with
  | none => exact empty
  | some s => rfl

theorem readsFinite_numberText {n : Number} (h : n.Fits) : readsFinite (numberText n) = true := by
  obtain ⟨x, read⟩ := exists_ofText?_numberText h
  simp [readsFinite, read, Binary64.Extended.isFinite]

/-- Of the scalars only a text can be read as an infinity or as the undefined value. -/
theorem isComparable_iff {v : Json} (fits : ∀ n, v.unwrap = .num n → n.Fits) :
    v.isComparable = true ↔ ∀ s, v.unwrap = .str s → readsFinite (Text.trim s) = true := by
  unfold isComparable scalarText?
  cases form : v.unwrap with
  | str s => simp
  | num n => simpa using readsFinite_numberText (fits n form)
  | bool b =>
    have words : readsFinite (boolText b) = true := by cases b <;> decide +kernel
    simpa using words
  | null => simp
  | arr items => simp
  | obj members => simp

/-- The value of an option object that holds a scalar is the scalar itself. -/
theorem scalarText?_unwrap {v : Json} (scalar : v.isScalar = true) :
    v.unwrap.scalarText? = v.scalarText? := by
  unfold isScalar at scalar
  cases form : v.unwrap <;> simp_all [scalarText?, unwrap]

/-- A scalar is an expected value of its own, not a list of them. -/
theorem meets_of_isScalar {v : Json} (scalar : v.isScalar = true) (expected : Json)
    (single : expected.isScalar = true) : v.meets expected = v.conditionEquals expected := by
  have same : v.unwrap.conditionEquals expected = v.conditionEquals expected := by
    rw [conditionEquals, conditionEquals, scalarText?_unwrap scalar]
  rw [← same]
  unfold meets
  unfold isScalar at scalar single
  cases form : v.unwrap with
  | arr items => simp [form] at scalar
  | _ =>
    cases expected with
    | arr wanted => simp [unwrap] at single
    | _ => rfl

end Json

namespace Condition

variable {controls : ControlSet} {scope : Scope} {c : Condition} {v : Json}

theorem holds_of_subject? (held : c.subject? controls scope = some v) :
    c.holds controls scope = c.accepts v := by
  rw [holds, held]

/-- A scalar is equal to itself exactly if it is no text that is read as an infinity or as the undefined value, and
then a condition on a control that holds it holds if it asks for that scalar, and does not hold if it asks for
another value. -/
theorem accepts_own_value_iff (scalar : v.isScalar = true) (fits : ∀ n, v.unwrap = .num n → n.Fits) :
    (v.conditionEquals v = true ↔ ∀ s, v.unwrap = .str s → Json.readsFinite (Text.trim s) = true) ∧
    ∀ (controls : ControlSet) (scope : Scope) (c : Condition),
      c.subject? controls scope = some v → c.value = v →
        (c.kind = .equals → (c.holds controls scope = true ↔
          ∀ s, v.unwrap = .str s → Json.readsFinite (Text.trim s) = true)) ∧
        (c.kind = .notEquals → (c.holds controls scope = false ↔
          ∀ s, v.unwrap = .str s → Json.readsFinite (Text.trim s) = true)) := by
  rw [← Json.isComparable_iff fits]
  refine ⟨by rw [Json.conditionEquals_self], fun controls scope c held expected => ?_⟩
  have met : v.meets c.value = v.isComparable := by
    rw [expected, Json.meets_of_isScalar scalar v scalar, Json.conditionEquals_self]
  constructor
  · intro kind
    rw [holds_of_subject? held, accepts, kind]
    simp only [met]
  · intro kind
    rw [holds_of_subject? held, accepts, kind]
    simp only [met, Bool.not_eq_false']

def rate : Json := .obj [("label", .str "reduced"), ("value", .num (.int 7))]

theorem accepts_own_value_rate :
    rate.isScalar = true ∧ (∀ n, rate.unwrap = .num n → n.Fits) ∧ rate.conditionEquals rate = true ∧
      holds [⟨"rate", "rate", .fresh rate false true⟩] [] ⟨some "rate", .notEquals, rate, .and⟩ = false := by
  have scalar : rate.isScalar = true := by decide
  have held : rate.unwrap = .num (.int 7) := rfl
  have fits : ∀ n, rate.unwrap = .num n → n.Fits := by
    intro n number
    obtain rfl := Json.num.inj (held.symm.trans number)
    have word : (7 : Int).natAbs < Json.Numeral.wordLimit := by decide
    exact word
  have finite : ∀ s, rate.unwrap = .str s → Json.readsFinite (Text.trim s) = true := by
    intro s text
    cases held.symm.trans text
  obtain ⟨itself, met⟩ := accepts_own_value_iff scalar fits
  exact ⟨scalar, fits, itself.2 finite, ((met _ _ _ rfl rfl).2 rfl).2 finite⟩

/-- A name that is also a word for the undefined value is not equal to itself. -/
theorem name_refused :
    (Json.str "Nan").isScalar = true ∧ (Json.str "Nan").conditionEquals (.str "Nan") = false ∧
      holds [⟨"name", "name", .fresh (.str "Nan") false true⟩] []
        ⟨some "name", .equals, .str "Nan", .and⟩ = false ∧
      holds [⟨"name", "name", .fresh (.str "Nan") false true⟩] []
        ⟨some "name", .notEquals, .str "Nan", .and⟩ = true := by
  decide +kernel

end Condition

end Formwork
