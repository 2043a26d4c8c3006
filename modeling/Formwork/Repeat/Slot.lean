import Formwork.Identifier
import Formwork.Table

/-!
# Slots of repeated groups

The identifier of everything inside instance `n` of a repeated group is the stem of the group, the
numeral of `n`, an underscore and the rest. This module reads such names back: as a slot, by the first
underscore after the stem, and as a bare index, by the digits after the stem. It also renames slots
after an instance is removed. Whether a name belongs to the group is decided by its text alone, so a
name from elsewhere that happens to have the form counts too.
-/
namespace Formwork

/-- What a name says beyond the stem of a group: the instance, and the name inside it. -/
structure Slot where
  index : Nat
  rest : String
deriving DecidableEq, Repr

namespace Slot

/-- The first index that instances cannot have. -/
def indexLimit : Nat := Nat.pow 2 32

/-- The index written as ASCII digits, unless it is beyond the limit. -/
def indexOfChars? (digits : List Char) : Option Nat :=
  (Text.natOfChars? digits).filter (· < indexLimit)

/-- The characters of a name after the stem, if it begins with the stem. -/
def tail? (stem name : String) : Option (List Char) := stem.toList.isPrefixOf? name.toList

/-- Reads a name as a slot: the index stands between the stem and the next underscore. -/
def ofName? (stem name : String) : Option Slot := do
  let tail ← tail? stem name
  match tail.dropWhile (· ≠ '_') with
  | [] => none
  | _ :: rest =>
    let index ← indexOfChars? (tail.takeWhile (· ≠ '_'))
    some ⟨index, String.ofList rest⟩

def name (stem : String) (s : Slot) : String := Frame.opening ⟨stem, s.index⟩ ++ s.rest

/-- The index of a name: the digits of any script after the stem, as far as they reach, must be
followed by an underscore and be ASCII digits. -/
def scanIndex? (stem name : String) : Option Nat := do
  let tail ← tail? stem name
  match tail.dropWhile Text.isDecimalDigit with
  | '_' :: _ => indexOfChars? (tail.takeWhile Text.isDecimalDigit)
  | _ => none

/-- The highest index among the names, or zero. -/
def highestIndex (stem : String) (names : List String) : Nat :=
  (names.filterMap (scanIndex? stem)).foldl max 0

end Slot

structure Removal where
  /-- What the names in the group begin with. -/
  stem : String
  /-- The number of the instance. -/
  index : Nat
  /-- How many instances there were. -/
  count : Nat
deriving DecidableEq, Repr

namespace Removal

/-- The name that a name has after the removal: none in the instance removed, one less in later
instances, and the same elsewhere. -/
def rename? (r : Removal) (name : String) : Option String :=
  match Slot.ofName? r.stem name with
  | none => some name
  | some s =>
    if s.index = r.index then none
    else if r.index < s.index ∧ s.index ≤ r.count then
      some (Slot.name r.stem { s with index := s.index - 1 })
    else some name

/-- The table with every name changed as the removal asks. What stands under a name in the instance removed is
dropped, and what stands under one in a later instance moves down with it; the counts of repeated groups nested
in an instance are recorded under such names, so they go or move too.

Two names become one only if one of them is written with leading zeros, as `contacts_02_phones` beside
`contacts_2_phones`. Then the later entry counts. In a document, which is ordered by name, this is fixed;
recorded counts and selections are not ordered in themselves, so which of the two counts is a choice made here,
and nothing may rely on it. -/
def shift {α : Type} (r : Removal) (t : Table α) : Table α :=
  Table.ofPairs (t.filterMap fun e => (r.rename? e.1).map fun name => (name, e.2))

end Removal

end Formwork
