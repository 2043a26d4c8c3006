import Formwork.Json.Basic
import Formwork.Repeat.Slot
import Formwork.Tree.Basic

/-!
# Counts of repeated groups

The registry knows the repeated groups of a form and how many instances each has. Groups are entered
anew whenever the form is laid out; counts stay, so that instances added or removed survive this, and
so do counts of groups that are out of sight for the moment.
-/
namespace Formwork

/-- How many instances a repeated group may have and how many it starts with. -/
structure RepeatBounds where
  min : Nat
  max : Nat
  defaultCount : Nat
deriving DecidableEq, Repr

namespace RepeatBounds

/-- The bounds that a template declares. Without a least count it is zero, without a greatest it is
`fallbackMax`; a greatest below the least is raised to it, and the default is brought in between. -/
def ofSpec (spec : RepeatSpec) (fallbackMax : Nat) : RepeatBounds :=
  let least := spec.min.getD 0
  let greatest := Nat.max (spec.max.getD fallbackMax) least
  ⟨least, greatest, Nat.min (Nat.max (spec.defaultCount.getD least) least) greatest⟩

def clamp (b : RepeatBounds) (n : Nat) : Nat := Nat.min (Nat.max n b.min) b.max

theorem min_le_max_ofSpec (spec : RepeatSpec) (fallbackMax : Nat) :
    (ofSpec spec fallbackMax).min ≤ (ofSpec spec fallbackMax).max :=
  Nat.le_max_right ..

theorem min_le_clamp {b : RepeatBounds} (h : b.min ≤ b.max) (n : Nat) : b.min ≤ b.clamp n :=
  Nat.le_min.2 ⟨Nat.le_max_right .., h⟩

theorem clamp_le_max (b : RepeatBounds) (n : Nat) : b.clamp n ≤ b.max := Nat.min_le_right ..

end RepeatBounds

structure RepeatEntry where
  key : String
  owner : GroupKind
  /-- What every identifier inside the group begins with. -/
  stem : String
  /-- The ids of the fields that each instance has outside of further repeated groups. -/
  fieldIds : List String
  bounds : RepeatBounds
  label : Option String

def RepeatEntry.toJson (e : RepeatEntry) : Json :=
  Json.object [("key", .str e.key), ("owner", .str e.owner.name), ("prefix", .str e.stem),
    ("fieldIds", Json.ofTexts e.fieldIds), ("min", Json.ofNat e.bounds.min),
    ("max", Json.ofNat e.bounds.max), ("defaultCount", Json.ofNat e.bounds.defaultCount),
    ("label", Json.ofOption .str e.label)]

structure Registry where
  entries : Table RepeatEntry
  counts : Table Nat

namespace Registry

def empty : Registry := ⟨[], []⟩

/-- The registry without groups, counts kept. -/
def clearEntries (r : Registry) : Registry := { r with entries := [] }

def entry? (key : String) (r : Registry) : Option RepeatEntry := Table.get? key r.entries

def count? (key : String) (r : Registry) : Option Nat := Table.get? key r.counts

def register (e : RepeatEntry) (r : Registry) : Registry :=
  { r with entries := Table.insert e.key e r.entries }

/-- How many instances a group is to have: the count recorded, or else the greater of the highest
index in the stored document and the default; brought within the bounds in either case. -/
def countFor (e : RepeatEntry) (stored : Fields) (r : Registry) : Nat :=
  e.bounds.clamp <|
    match r.count? e.key with
    | some n => n
    | none => Nat.max (Slot.highestIndex e.stem stored.names) e.bounds.defaultCount

/-- Registries that know the same count for a group give it the same number of instances. -/
theorem countFor_congr {r r' : Registry} {e : RepeatEntry} (h : r.count? e.key = r'.count? e.key)
    (stored : Fields) : r.countFor e stored = r'.countFor e stored := by
  rw [countFor, countFor, h]

def recordCount (key : String) (n : Nat) (r : Registry) : Registry :=
  { r with counts := Table.insert key n r.counts }

/-- The group under a key and its count, if both are known. -/
def known? (key : String) (r : Registry) : Option (RepeatEntry × Nat) :=
  match r.entry? key, r.count? key with
  | some e, some n => some (e, n)
  | _, _ => none

def canAdd (key : String) (r : Registry) : Bool :=
  match r.known? key with
  | some (e, n) => n < e.bounds.max
  | none => false

/-- The registry with one more instance of a group, if it may have one. -/
def add? (key : String) (r : Registry) : Option Registry :=
  if r.canAdd key then some { r with counts := Table.modify key (· + 1) r.counts } else none

/-- Whether the group is known, has the instance, and may have one fewer. -/
def canRemove (key : String) (index : Nat) (r : Registry) : Bool :=
  match r.known? key with
  | some (e, n) => e.bounds.min < n && 1 ≤ index && index ≤ n
  | none => false

/-- The registry with one instance of a group removed, if this is possible, and what names have to
change for it. The counts of groups inside later instances move with them. -/
def remove? (key : String) (index : Nat) (r : Registry) : Option (Removal × Registry) :=
  match r.known? key with
  | some (e, n) =>
    if r.canRemove key index then
      let removal : Removal := ⟨e.stem, index, n⟩
      some (removal,
        { r with counts := Table.modify key (· - 1) (removal.shift r.counts) })
    else none
  | none => none

end Registry

end Formwork
