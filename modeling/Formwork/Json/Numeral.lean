import Formwork.Binary64.Decimal
import Formwork.Json.Basic
import Formwork.Text.Numeral

/-!
# Number tokens of a JSON text

A token is first split into its parts and only then given a value, because members that nobody reads
are checked for their form alone. The value of a token without fraction and exponent is an integer
if it fits 64 bits. Every other token is read in two roundings: its leading digits, as many as fit
64 bits, become a binary64 number, which is then multiplied or divided by a power of ten. The result
can therefore differ in its last bit from the number nearest to the decimal.
-/
namespace Formwork.Json

structure Numeral where
  /-- Whether a minus sign stands in front. -/
  negative : Bool
  /-- The digits before the point. -/
  whole : List Char
  /-- The digits after the point, if there is one. -/
  fraction : Option (List Char)
  /-- The sign and the digits of the exponent, if there is one. -/
  exponent : Option (Bool × List Char)

namespace Numeral

def splitExponent? : List Char → Option (Option (Bool × List Char))
  | [] => some none
  | c :: s =>
    if c = 'e' ∨ c = 'E' then
      let (negative, digits) :=
        match s with
        | '-' :: digits => (true, digits)
        | '+' :: digits => (false, digits)
        | digits => (false, digits)
      if digits ≠ [] ∧ digits.all Char.isDigit then some (some (negative, digits)) else none
    else none

/-- The parts of an unsigned token: a numeral without superfluous leading zeros, then optionally a
point with at least one digit, then optionally an exponent with at least one digit. -/
def splitUnsigned? (negative : Bool) (s : List Char) : Option Numeral :=
  let whole := s.takeWhile Char.isDigit
  if whole = [] ∨ (whole.head? = some '0' ∧ whole ≠ ['0']) then none
  else
    match s.dropWhile Char.isDigit with
    | '.' :: rest =>
      let fraction := rest.takeWhile Char.isDigit
      if fraction = [] then none
      else
        (splitExponent? (rest.dropWhile Char.isDigit)).map fun e => ⟨negative, whole, some fraction, e⟩
    | rest => (splitExponent? rest).map fun e => ⟨negative, whole, none, e⟩

def ofChars? : List Char → Option Numeral
  | '-' :: s => splitUnsigned? true s
  | s => splitUnsigned? false s

/-- The first number beyond 64 bits. -/
def wordLimit : Nat := Nat.pow 2 64

/-- Appends digits to `n` as long as the number stays below 64 bits. Gives the number and the digits
that were not taken. -/
def takeDigits (n : Nat) : List Char → Nat × List Char
  | [] => (n, [])
  | c :: s =>
    let next := n * 10 + Text.digitValue c
    if next < wordLimit then takeDigits next s else (n, c :: s)

def exponentLimit : Nat := Nat.pow 2 31 - 1

/-- Divides by ten to the power `n`, in steps of at most `10 ^ 308`. A number that has become zero
stays zero, so a few steps are enough. -/
def divideByPowerOfTen : Nat → Binary64 → Nat → Binary64
  | 0, x, _ => x
  | steps + 1, x, n =>
    if n ≤ 308 then (x.div? (.ofNat (Nat.pow 10 n))).getD x
    else if x.isZero then x
    else divideByPowerOfTen steps ((x.div? (.ofNat (Nat.pow 10 308))).getD x) (n - 308)

/-- The number times ten to the power `e`, or `none` if it lies beyond the format. -/
def scaleByPowerOfTen? (x : Binary64) (e : Int) : Option Binary64 :=
  if e < 0 then some (divideByPowerOfTen 4 x e.natAbs)
  else if e ≤ 308 then x.mul? (.ofNat (Nat.pow 10 e.toNat))
  else if x.isZero then some x
  else none

/-- The leading digits of the token as a number below 64 bits, and the power of ten it is short of. -/
def significand (t : Numeral) : Nat × Int :=
  let (n, skipped) := takeDigits 0 t.whole
  let fraction := t.fraction.getD []
  let (m, ignored) := takeDigits n fraction
  (m, (skipped.length : Int) - (fraction.length - ignored.length : Nat))

def float? (t : Numeral) : Option Binary64 :=
  let (m, e) := t.significand
  let signed (x : Binary64) : Binary64 := { x with negative := t.negative }
  match t.exponent with
  | none => (scaleByPowerOfTen? (.ofNat m) e).map signed
  | some (negative, digits) =>
    let n := Text.readDigits 0 digits
    if n > exponentLimit then
      if m ≠ 0 ∧ negative = false then none else some (signed (.zero false))
    else (scaleByPowerOfTen? (.ofNat m) (if negative then e - n else e + n)).map signed

/-- The value of the token, or `none` if it is beyond the range of binary64. -/
def value? (t : Numeral) : Option Number :=
  let n := Text.readDigits 0 t.whole
  let plain := t.fraction.isNone && t.exponent.isNone
  if plain && t.negative && 0 < n && n ≤ Nat.pow 2 63 then some (.int (-n))
  else if plain && !t.negative && n < wordLimit then some (.int n)
  else t.float?.map .float

end Numeral

/-- The digits of a finite number, laid out: without an exponent from `10 ^ -5` up to `10 ^ 16`, with
a fraction even where it is zero, and otherwise with one digit before the point and a signed
exponent. -/
def decimalText (d : Decimal) : String :=
  let digits := Text.numeral d.digits
  let point := (digits.length : Int) + d.exponent
  let zeros (n : Nat) : List Char := List.replicate n '0'
  if 0 ≤ d.exponent ∧ point ≤ 16 then
    String.ofList (digits ++ zeros d.exponent.toNat ++ ['.', '0'])
  else if 0 < point ∧ point ≤ 16 then
    String.ofList (digits.take point.toNat ++ '.' :: digits.drop point.toNat)
  else if -5 < point ∧ point ≤ 0 then
    String.ofList ('0' :: '.' :: zeros (-point).toNat ++ digits)
  else
    let mantissa := match digits with
      | [c] => [c]
      | c :: rest => c :: '.' :: rest
      | [] => []
    let e := point - 1
    String.ofList mantissa ++ "e" ++ (if e < 0 then "-" else "+") ++ Text.ofNat e.natAbs

end Formwork.Json

namespace Formwork

/-- The text of a binary64 number: the fewest digits that identify it, with a fraction or an
exponent. -/
def Binary64.text (x : Binary64) : String :=
  (if x.negative then "-" else "") ++
    (if x.isZero then "0.0" else Json.decimalText x.shortest)

def Number.text : Number → String
  | .int z => Text.ofInt z
  | .float x => x.text

end Formwork
