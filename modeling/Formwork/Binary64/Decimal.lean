import Formwork.Binary64.Basic

/-!
# Decimals and binary64

Two directions: the number nearest to a decimal, and the decimal with the fewest digits that is
nearest to a number. Both compare exact naturals. How digits are laid out as text is left to the
formats that write them.
-/
namespace Formwork

/-- The decimal `digits * 10 ^ exponent`. -/
structure Decimal where
  digits : Nat
  exponent : Int
deriving DecidableEq, Repr

namespace Decimal

/-- The power of ten next to the decimal, give or take one place. -/
def magnitude (d : Decimal) : Int := (d.digits.log2 : Int) * 30103 / 100000 + d.exponent

def stripZeros : Nat → Decimal → Decimal
  | 0, d => d
  | fuel + 1, d =>
    if d.digits ≠ 0 ∧ d.digits % 10 = 0 then stripZeros fuel ⟨d.digits / 10, d.exponent + 1⟩ else d

end Decimal

namespace Binary64

/-- The number nearest to a decimal, or `none` if it lies beyond the format. Decimals far outside
the format are not computed: beyond `10 ^ 310` nothing is finite, and below `10 ^ -330` all rounds to
zero. -/
def ofDecimal? (negative : Bool) (d : Decimal) : Option Binary64 :=
  if d.digits = 0 || d.magnitude < -331 then some (zero negative)
  else if d.magnitude > 311 then none
  else ofRatio? negative (d.digits * Nat.pow 10 d.exponent.toNat) (Nat.pow 10 (-d.exponent).toNat)

/-- Whether the decimal is nearer to the number of `units` units than to any other number of the
format, or half-way to a neighbour that is odd. -/
def readsBack (units : Nat) (d : Decimal) : Bool :=
  let gap := Nat.pow 2 (gapExponent units)
  let narrow := units = Nat.pow 2 52 * gap && 1 < gap
  let low := 4 * units - (if narrow then gap else 2 * gap)
  let high := 4 * units + 2 * gap
  let even := units / gap % 2 = 0
  let value := 4 * d.digits * unit * Nat.pow 10 d.exponent.toNat
  let scale := Nat.pow 10 (-d.exponent).toNat
  (low * scale < value || (even && low * scale = value)) &&
    (value < high * scale || (even && value = high * scale))

/-- The decimal on the grid of `10 ^ exponent` that reads back as `units` units, if there is one;
of two the nearer, and of two equally near the even one. -/
def onGrid? (units : Nat) (exponent : Int) : Option Decimal :=
  let num := units * Nat.pow 10 (-exponent).toNat
  let den := unit * Nat.pow 10 exponent.toNat
  let below : Decimal := ⟨num / den, exponent⟩
  let above : Decimal := ⟨num / den + 1, exponent⟩
  if readsBack units below then
    if readsBack units above && roundHalfEven num den ≠ num / den then some above else some below
  else if readsBack units above then some above
  else none

/-- The least `k` such that the number is below `10 ^ k`, for a number other than zero. -/
def decimalScale (units : Nat) : Int :=
  let guess : Int := ((units.log2 : Int) - 1074) * 30103 / 100000
  let below (k : Int) : Bool := units * Nat.pow 10 (-k).toNat < unit * Nat.pow 10 k.toNat
  if below guess then guess else if below (guess + 1) then guess + 1 else guess + 2

/-- The decimal with the fewest digits that reads back as the number. Seventeen digits suffice; the
exact value stands behind the search. -/
def shortest (x : Binary64) : Decimal :=
  if x.units = 0 then ⟨0, 0⟩
  else
    let scale := decimalScale x.units
    let found := (List.range' 1 17).findSome? fun n : Nat => onGrid? x.units (scale - n)
    Decimal.stripZeros 20 (found.getD ⟨x.units * Nat.pow 5 1074, -1074⟩)

example : (ofDecimal? false ⟨1, -1⟩).map shortest = some ⟨1, -1⟩ := by decide +kernel

example : (ofDecimal? false ⟨123456789012345678, 0⟩).map shortest = some ⟨12345678901234568, 1⟩ := by
  decide +kernel

example : (shortest ⟨false, 1⟩) = ⟨5, -324⟩ := by decide +kernel

example : (ofDecimal? false ⟨1, 23⟩).map shortest = some ⟨1, 23⟩ := by decide +kernel

end Binary64

end Formwork
