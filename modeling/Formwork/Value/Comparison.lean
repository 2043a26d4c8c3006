import Formwork.Binary64.Text
import Formwork.Calendar
import Formwork.Text.Case
import Formwork.Value.Basic

/-!
# Comparison in conditions

A condition compares a control's value with an expected value as the reader of a form would: numbers
by value, dates by day, times by instant, and everything else as text without regard to case. Which
of these applies depends on what both texts look like.
-/
namespace Formwork.Json

/-- How close two numbers must be to count as equal: the binary64 number nearest to `10 ^ -9`. -/
def tolerance : Binary64 := (Binary64.ofDecimal? false ⟨1, -9⟩).getD (.zero false)

/-- Whether two numbers are equal up to the tolerance. An infinity is equal to nothing, because its
difference from itself is undefined. -/
def nearlyEqual : Binary64.Extended → Binary64.Extended → Bool
  | .finite a, .finite b =>
    match a.distance? b with
    | some d => d.units < tolerance.units
    | none => false
  | _, _ => false

/-- Whether a text begins with a date of four, two and two digits. -/
def looksLikeDate (s : String) : Bool :=
  match s.toList with
  | y₁ :: y₂ :: y₃ :: y₄ :: '-' :: m₁ :: m₂ :: '-' :: d₁ :: d₂ :: _ =>
    [y₁, y₂, y₃, y₄, m₁, m₂, d₁, d₂].all Char.isDigit
  | _ => false

def isPlainDate (s : String) : Bool := looksLikeDate s && s.toList.length = 10

/-- Whether two texts that begin with a date are equal as dates, or `none` if they cannot be compared
so. If one of them is a plain date, only the days count; otherwise the instants do. -/
def datesEqual? (s t : String) : Option Bool :=
  if !(looksLikeDate s && looksLikeDate t) then none
  else if isPlainDate s || isPlainDate t then
    match Instant.date? s.toList, Instant.date? t.toList with
    | some (a, _), some (b, _) => some (a == b)
    | _, _ => none
  else
    match Instant.ofText? s, Instant.ofText? t with
    | some a, some b => some (a == b)
    | _, _ => none

def textsEqual (s t : String) : Bool :=
  match Binary64.ofText? s, Binary64.ofText? t with
  | some a, some b => nearlyEqual a b
  | _, _ => (datesEqual? s t).getD (Text.lowercase s == Text.lowercase t)

/-- Equality of a control's value with an expected value. -/
def conditionEquals (actual expected : Json) : Bool :=
  textsEqual (actual.scalarText?.getD "") (expected.scalarText?.getD "")

end Formwork.Json
