import Formwork.Binary64.Decimal
import Formwork.Text.Numeral

/-!
# Numbers read from text

A number is written with an optional sign and then as a decimal with an optional point and an
optional exponent, where at least one digit stands before or after the point, or as one of the words
`inf`, `infinity` and `nan` in any case. Blanks and digit separators are not accepted.
-/
namespace Formwork.Binary64

/-- The parts of an unsigned decimal: the digits before the point, those after it, and the rest. -/
def splitDecimal (s : List Char) : List Char × List Char × List Char :=
  let whole := s.takeWhile Char.isDigit
  match s.dropWhile Char.isDigit with
  | '.' :: rest => (whole, rest.takeWhile Char.isDigit, rest.dropWhile Char.isDigit)
  | rest => (whole, [], rest)

/-- The integer written with an optional sign and one or more digits. -/
def signedInt? : List Char → Option Int
  | '-' :: s => (Text.natOfChars? s).map fun n => -(n : Int)
  | '+' :: s => (Text.natOfChars? s).map fun n => (n : Int)
  | s => (Text.natOfChars? s).map fun n => (n : Int)

/-- The decimal exponent written after the digits, zero if nothing is. -/
def exponent? : List Char → Option Int
  | [] => some 0
  | c :: s => if c = 'e' ∨ c = 'E' then signedInt? s else none

def unsignedDecimal? (s : List Char) : Option Decimal :=
  match splitDecimal s with
  | (whole, fraction, rest) =>
    if whole = [] ∧ fraction = [] then none
    else
      (exponent? rest).map fun e =>
        ⟨Text.readDigits 0 (whole ++ fraction), e - (fraction.length : Int)⟩

/-- The value of an unsigned text, given the sign that stood before it. -/
def ofUnsigned? (negative : Bool) (s : List Char) : Option Extended :=
  let word := s.map Char.toLower
  if word = ['i', 'n', 'f'] ∨ word = ['i', 'n', 'f', 'i', 'n', 'i', 't', 'y'] then
    some (.infinite negative)
  else if word = ['n', 'a', 'n'] then some .undefined
  else
    (unsignedDecimal? s).map fun d =>
      match ofDecimal? negative d with
      | some x => .finite x
      | none => .infinite negative

def ofText? (s : String) : Option Extended :=
  match s.toList with
  | '-' :: rest => ofUnsigned? true rest
  | '+' :: rest => ofUnsigned? false rest
  | rest => ofUnsigned? false rest

example : ofText? "-1.5e1" = some (.finite ⟨true, 15 * unit⟩) := by decide +kernel

example : ofText? "1e" = none ∧ ofText? "." = none ∧ (ofText? "1.").isSome = true := by decide +kernel

end Formwork.Binary64
