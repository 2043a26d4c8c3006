/-!
# Numbers of the binary64 format

A finite number is a sign and a whole number of units, where the unit is the least positive number
of the format, `2 ^ -1074`. Every operation computes its exact result first and rounds once, to the
nearest number and to the even neighbour on a tie. Infinities and the undefined value belong to
`Binary64.Extended`, which only reading a number from text needs.
-/
namespace Formwork

/-- A finite number of the binary64 format. -/
structure Binary64 where
  /-- Whether the number carries a minus sign, which zero may do as well. -/
  negative : Bool
  /-- The magnitude as a multiple of `2 ^ -1074`. -/
  units : Nat
deriving DecidableEq, Repr

namespace Binary64

/-- The number of units in one. -/
def unit : Nat := Nat.pow 2 1074

/-- The least number of units that is beyond the format. -/
def unitLimit : Nat := Nat.pow 2 2098

def zero (negative : Bool) : Binary64 := ⟨negative, 0⟩

instance : Inhabited Binary64 := ⟨zero false⟩

/-- The quotient rounded to the nearest natural number, a tie to the even one. -/
def roundHalfEven (num den : Nat) : Nat :=
  let q := num / den
  let r := num % den
  if 2 * r < den then q
  else if 2 * r > den then q + 1
  else if q % 2 = 0 then q else q + 1

/-- The binary exponent of the gap between neighbouring numbers around `n` units. -/
def gapExponent (n : Nat) : Nat := n.log2 - 52

/-- The number of units nearest to `num / den` units that the format has. -/
def roundUnits (num den : Nat) : Nat :=
  let e := gapExponent (num / den)
  roundHalfEven num (den * Nat.pow 2 e) * Nat.pow 2 e

/-- The number nearest to `num / den` units, or `none` if it lies beyond the format. -/
def ofUnits? (negative : Bool) (num den : Nat) : Option Binary64 :=
  let n := roundUnits num den
  if n < unitLimit then some ⟨negative, n⟩ else none

/-- The number nearest to `num / den`, or `none` if it lies beyond the format. -/
def ofRatio? (negative : Bool) (num den : Nat) : Option Binary64 :=
  ofUnits? negative (num * unit) den

/-- The number nearest to a natural number, or the greatest number if that lies beyond the format. -/
def ofNat (n : Nat) : Binary64 :=
  (ofRatio? false n 1).getD ⟨false, unitLimit - Nat.pow 2 2045⟩

def ofInt (z : Int) : Binary64 := { ofNat z.natAbs with negative := z < 0 }

/-- The product, or `none` if it lies beyond the format. -/
def mul? (a b : Binary64) : Option Binary64 :=
  ofUnits? (a.negative != b.negative) (a.units * b.units) unit

/-- The quotient by a number other than zero, or `none` if it lies beyond the format. -/
def div? (a b : Binary64) : Option Binary64 :=
  ofUnits? (a.negative != b.negative) (a.units * unit) b.units

/-- The exact value in units. -/
def signedUnits (a : Binary64) : Int := if a.negative then -a.units else a.units

/-- The distance between two numbers, rounded, or `none` if it lies beyond the format. -/
def distance? (a b : Binary64) : Option Binary64 :=
  ofUnits? false (a.signedUnits - b.signedUnits).natAbs 1

def isZero (a : Binary64) : Bool := a.units = 0

def isIntegral (a : Binary64) : Bool := a.units % unit = 0

def truncated (a : Binary64) : Nat := a.units / unit

/-- Numeric equality: zeros of either sign are equal. -/
def same (a b : Binary64) : Bool :=
  a.units = b.units && (a.negative = b.negative || a.units = 0)

/-- A key whose order is that of the numbers, with minus zero just below zero. -/
def orderKey (a : Binary64) : Int := if a.negative then -a.units - 1 else a.units

inductive Extended where
  /-- A finite number. -/
  | finite (x : Binary64)
  /-- The infinity of the given sign. -/
  | infinite (negative : Bool)
  /-- The value that is no number. -/
  | undefined
deriving DecidableEq, Repr

@[simp] theorem same_self (a : Binary64) : a.same a = true := by simp [same]

theorem roundUnits_zero (den : Nat) : roundUnits 0 den = 0 := by
  simp only [roundUnits, roundHalfEven, Nat.zero_div, Nat.zero_mod, Nat.mul_zero]
  split <;> simp

end Binary64

end Formwork
