import Formwork.Text.Blank
import Formwork.Text.Numeral

/-!
# Dates and times

Dates of the Gregorian calendar, instants in universal time, and the texts they are read from. Two
families of texts are read: a strict one with an offset from universal time, and a lenient one
without offset, whose hours, minutes and seconds may have one digit and blanks in front. A second may
be the sixtieth of its minute; it is kept apart from the second that follows. Time zones by name are
not read.
-/
namespace Formwork

structure Date where
  year : Int
  month : Nat
  day : Nat
deriving DecidableEq, Repr

namespace Date

def isLeapYear (year : Int) : Bool := year % 4 = 0 && (year % 100 ≠ 0 || year % 400 = 0)

def monthLength (year : Int) (month : Nat) : Nat :=
  if month = 2 then (if isLeapYear year then 29 else 28)
  else if month = 4 ∨ month = 6 ∨ month = 9 ∨ month = 11 then 30
  else 31

/-- The date of a year, month and day, if the calendar has it. -/
def ofParts? (year : Int) (month day : Nat) : Option Date :=
  if 1 ≤ month ∧ month ≤ 12 ∧ 1 ≤ day ∧ day ≤ monthLength year month then some ⟨year, month, day⟩
  else none

/-- The days from 1 January 1970 to the date. Years are counted from March, so that the leap day is
the last of its year. -/
def dayNumber (d : Date) : Int :=
  let y := if d.month ≤ 2 then d.year - 1 else d.year
  let m : Int := (d.month + 9) % 12
  365 * y + y / 4 - y / 100 + y / 400 + (153 * m + 2) / 5 + d.day - 1 - 719468

/-- The date that is the given number of days after 1 January 1970. -/
def ofDayNumber (n : Int) : Date :=
  let z := n + 719468
  let era := z / 146097
  let dayOfEra := z % 146097
  let yearOfEra := (dayOfEra - dayOfEra / 1460 + dayOfEra / 36524 - dayOfEra / 146096) / 365
  let dayOfYear := dayOfEra - (365 * yearOfEra + yearOfEra / 4 - yearOfEra / 100)
  let m := (5 * dayOfYear + 2) / 153
  let day := (dayOfYear - (153 * m + 2) / 5 + 1).toNat
  let month := (if m < 10 then m + 3 else m - 9).toNat
  ⟨yearOfEra + era * 400 + (if month ≤ 2 then 1 else 0), month, day⟩

example : (ofDayNumber 0) = ⟨1970, 1, 1⟩ ∧ (Date.mk 2024 2 29).dayNumber = 19782 := by decide

example : ofDayNumber (Date.mk 2000 2 29).dayNumber = ⟨2000, 2, 29⟩ := by decide

end Date

/-- A point of universal time. The sixtieth second of a minute is the fifty-ninth with a second more
of nanoseconds. -/
structure Instant where
  /-- Whole seconds since 1 January 1970, leap seconds not counted. -/
  seconds : Int
  /-- Nanoseconds within the second. -/
  nanos : Nat
deriving DecidableEq, Repr

namespace Instant

def epoch : Instant := ⟨0, 0⟩

/-- The instant of a date and a time of day, if the day has that time. The second `60` is allowed in
every minute. -/
def ofParts? (date : Date) (hour minute second nanos : Nat) : Option Instant :=
  if hour ≤ 23 ∧ minute ≤ 59 ∧ second ≤ 60 then
    let start := date.dayNumber * 86400 + hour * 3600 + minute * 60
    if second = 60 then some ⟨start + 59, nanos + 1000000000⟩ else some ⟨start + second, nanos⟩
  else none

/-- The number written with exactly `n` digits, and what follows. -/
def digits? (n : Nat) (s : List Char) : Option (Nat × List Char) :=
  let front := s.take n
  if front.length = n ∧ front.all Char.isDigit then some (Text.readDigits 0 front, s.drop n) else none

/-- The number written with one digit or as many more as follow, at most `n`, and what follows. -/
def upToDigits? (n : Nat) (s : List Char) : Option (Nat × List Char) :=
  let front := (s.take n).takeWhile Char.isDigit
  if front = [] then none else some (Text.readDigits 0 front, s.drop front.length)

def mark? (c : Char) : List Char → Option (List Char)
  | [] => none
  | d :: s => if d = c then some s else none

/-- The nanoseconds of an optional fraction of a second, and what follows. Digits beyond the ninth
are skipped. -/
def fraction? : List Char → Option (Nat × List Char)
  | '.' :: s =>
    let digits := s.takeWhile Char.isDigit
    let front := digits.take 9
    if digits = [] then none
    else some (Text.readDigits 0 front * Nat.pow 10 (9 - front.length), s.dropWhile Char.isDigit)
  | s => some (0, s)

def offset? (s : List Char) : Option (Int × List Char) :=
  match s with
  | [] => none
  | c :: rest =>
    if c = 'Z' ∨ c = 'z' then some (0, rest)
    else if c = '+' ∨ c = '-' ∨ c = '\u2212' then do
      let (hours, rest) ← digits? 2 rest
      let rest ← mark? ':' rest
      let (minutes, rest) ← digits? 2 rest
      if minutes ≤ 59 ∧ hours ≤ 23 then
        let total : Int := hours * 60 + minutes
        some (if c = '+' then total else -total, rest)
      else none
    else none

/-- The date at the front of a text, written with four digits, two and two, and what follows. -/
def date? (s : List Char) : Option (Date × List Char) := do
  let (year, s) ← digits? 4 s
  let s ← mark? '-' s
  let (month, s) ← digits? 2 s
  let s ← mark? '-' s
  let (day, s) ← digits? 2 s
  let date ← Date.ofParts? year month day
  some (date, s)

/-- The instant that a text with an offset stands for: date, a `T`, `t` or space, the time with two
digits each and an optional fraction, and the offset. -/
def ofStamp? (s : List Char) : Option Instant := do
  let (date, s) ← date? s
  let (hour, s) ← match s with
    | c :: rest => if c = 'T' ∨ c = 't' ∨ c = ' ' then digits? 2 rest else none
    | [] => none
  let s ← mark? ':' s
  let (minute, s) ← digits? 2 s
  let s ← mark? ':' s
  let (second, s) ← digits? 2 s
  let (nanos, s) ← fraction? s
  let (offset, s) ← offset? s
  let local_ ← ofParts? date hour minute second nanos
  if s = [] then some { local_ with seconds := local_.seconds - offset * 60 } else none

/-- The number at the front of a text after optional blanks, written with one or two digits. -/
def looseNumber? (s : List Char) : Option (Nat × List Char) :=
  upToDigits? 2 (s.dropWhile Text.isBlank)

/-- The instant of a date and a lenient time, with or without seconds. -/
def ofLooseTime? (date : Date) (withSeconds : Bool) (s : List Char) : Option Instant := do
  let (hour, s) ← looseNumber? s
  let s ← mark? ':' s
  let (minute, s) ← looseNumber? s
  let (second, nanos, s) ←
    if withSeconds then do
      let s ← mark? ':' s
      let (second, s) ← looseNumber? s
      let (nanos, s) ← fraction? s
      some (second, nanos, s)
    else some (0, 0, s)
  if s = [] then ofParts? date hour minute second nanos else none

/-- The instant that a text without offset stands for, taken as universal time: a date, a `T` or any
blanks, and a lenient time. -/
def ofLoose? (s : List Char) : Option Instant := do
  let (date, s) ← date? s
  let times := match s with
    | 'T' :: rest => [rest]
    | _ => []
  let times := times ++ [s.dropWhile Text.isBlank]
  times.findSome? fun time =>
    (ofLooseTime? date true time).orElse fun _ => ofLooseTime? date false time

/-- The instant that a text stands for, with or without offset. -/
def ofText? (s : String) : Option Instant :=
  (ofStamp? s.toList).orElse fun _ => ofLoose? s.toList

def padded (width n : Nat) : String :=
  let digits := Text.numeral n
  String.ofList (List.replicate (width - digits.length) '0' ++ digits)

/-- The year with four digits, and with a sign where four digits are not enough. -/
def yearText (year : Int) : String :=
  if year < 0 then "-" ++ padded 4 year.natAbs
  else if year ≤ 9999 then padded 4 year.natAbs
  else "+" ++ padded 4 year.natAbs

/-- The instant as text, with whole seconds and the mark of universal time. -/
def text (t : Instant) : String :=
  let date := Date.ofDayNumber (t.seconds / 86400)
  let ofDay := (t.seconds % 86400).toNat
  let second := ofDay % 60 + t.nanos / 1000000000
  yearText date.year ++ "-" ++ padded 2 date.month ++ "-" ++ padded 2 date.day ++ "T" ++
    padded 2 (ofDay / 3600) ++ ":" ++ padded 2 (ofDay / 60 % 60) ++ ":" ++ padded 2 second ++ "Z"

end Instant

end Formwork
