import Formwork.Json.Written
import Formwork.Proofs.Binary64
import Formwork.Table.Lemmas

/-!
# The numbers in a JSON value

A JSON value holds binary64 numbers next to its integers. This module says of a whole value that each of
them is a number of the format, and shows it of every value that is read from a text.
-/
namespace Formwork.Json

mutual

/-- Whether each binary64 number in the value, at any depth, is one of the format. -/
def InFormat : Json → Prop
  | .num (.float x) => x.InFormat
  | .arr items => ItemsInFormat items
  | .obj members => MembersInFormat members
  | _ => True

def ItemsInFormat : List Json → Prop
  | [] => True
  | v :: items => InFormat v ∧ ItemsInFormat items

def MembersInFormat : List (String × Json) → Prop
  | [] => True
  | (_, v) :: members => InFormat v ∧ MembersInFormat members

end

theorem itemsInFormat_iff {items : List Json} : ItemsInFormat items ↔ ∀ v ∈ items, InFormat v := by
  induction items with
  | nil => simp [ItemsInFormat]
  | cons v items ih => simp [ItemsInFormat, ih]

theorem membersInFormat_iff {members : Fields} :
    MembersInFormat members ↔ ∀ e ∈ members, InFormat e.2 := by
  induction members with
  | nil => simp [MembersInFormat]
  | cons e members ih =>
    obtain ⟨k, v⟩ := e
    simp [MembersInFormat, ih]

theorem inFormat_of_get? {key : String} {members : Fields} {v : Json} (h : MembersInFormat members)
    (found : Table.get? key members = some v) : InFormat v :=
  membersInFormat_iff.1 h _ (Table.mem_of_get? found)

theorem membersInFormat_insert {key : String} {v : Json} {t : Fields} (hv : InFormat v)
    (ht : MembersInFormat t) : MembersInFormat (Table.insert key v t) := by
  refine membersInFormat_iff.2 fun e he => ?_
  rcases Table.mem_insert he with rfl | old
  · exact hv
  · exact membersInFormat_iff.1 ht e old

theorem membersInFormat_override {newer : Fields} (h : MembersInFormat newer) {t : Fields}
    (ht : MembersInFormat t) : MembersInFormat (Table.override t newer) := by
  induction newer generalizing t with
  | nil => exact ht
  | cons e newer ih =>
    obtain ⟨k, v⟩ := e
    exact ih h.2 (membersInFormat_insert h.1 ht)

/-- The object of a list of members holds no other values than the list. -/
theorem inFormat_object {members : Fields} (h : MembersInFormat members) : InFormat (object members) :=
  membersInFormat_override h trivial

namespace Numeral

open Binary64

theorem inFormat_div?_getD {x : Binary64} (h : x.InFormat) (y : Binary64) :
    ((x.div? y).getD x).InFormat := by
  cases quotient : x.div? y with
  | none => exact h
  | some z => exact inFormat_of_ofUnits? quotient

theorem inFormat_divideByPowerOfTen (steps : Nat) {x : Binary64} (h : x.InFormat) (n : Nat) :
    (divideByPowerOfTen steps x n).InFormat := by
  induction steps generalizing x n with
  | zero => exact h
  | succ steps ih =>
    unfold divideByPowerOfTen
    split
    · exact inFormat_div?_getD h _
    · split
      · exact h
      · exact ih (inFormat_div?_getD h _) _

theorem inFormat_of_scaleByPowerOfTen? {x y : Binary64} {e : Int} (h : x.InFormat)
    (scaled : scaleByPowerOfTen? x e = some y) : y.InFormat := by
  unfold scaleByPowerOfTen? at scaled
  split at scaled
  · obtain rfl := Option.some.inj scaled
    exact inFormat_divideByPowerOfTen 4 h _
  · split at scaled
    · exact inFormat_of_ofUnits? scaled
    · split at scaled
      · obtain rfl := Option.some.inj scaled
        exact h
      · cases scaled

/-- The value of a number token is a number of the format. -/
theorem inFormat_of_float? {t : Numeral} {x : Binary64} (h : t.float? = some x) : x.InFormat := by
  have signed {e : Int} {m : Nat} (h : (scaleByPowerOfTen? (.ofNat m) e).map
      (fun x => { x with negative := t.negative }) = some x) : x.InFormat := by
    obtain ⟨y, scaled, rfl⟩ := Option.map_eq_some_iff.1 h
    exact (inFormat_of_scaleByPowerOfTen? (inFormat_ofNat m) scaled).withSign _
  simp only [float?] at h
  split at h
  · exact signed h
  · split at h
    · split at h
      · cases h
      · obtain rfl := Option.some.inj h
        exact (inFormat_zero false).withSign _
    · exact signed h

theorem inFormat_of_value? {t : Numeral} {n : Number} (h : t.value? = some n) :
    InFormat (.num n) := by
  simp only [value?] at h
  split at h
  · obtain rfl := Option.some.inj h
    trivial
  · split at h
    · obtain rfl := Option.some.inj h
      trivial
    · obtain ⟨x, read, rfl⟩ := Option.map_eq_some_iff.1 h
      exact inFormat_of_float? read

end Numeral

mutual

theorem inFormat_of_ofWritten? (depth : Nat) : ∀ {w : Written} {v : Json},
    ofWritten? depth w = some v → InFormat v
  | .null, v, h => by
    obtain rfl := Option.some.inj h
    trivial
  | .bool _, v, h => by
    obtain rfl := Option.some.inj h
    trivial
  | .number t, v, h => by
    obtain ⟨n, read, rfl⟩ := Option.map_eq_some_iff.1 h
    exact Numeral.inFormat_of_value? read
  | .text _, v, h => by
    obtain ⟨s, -, rfl⟩ := Option.map_eq_some_iff.1 h
    trivial
  | .array items, v, h => by
    unfold ofWritten? at h
    split at h
    · cases h
    · obtain ⟨vs, read, rfl⟩ := Option.map_eq_some_iff.1 h
      exact itemsInFormat_of_itemsOfWritten? (depth - 1) read
  | .object members, v, h => by
    unfold ofWritten? at h
    split at h
    · cases h
    · obtain ⟨es, read, rfl⟩ := Option.map_eq_some_iff.1 h
      exact inFormat_object (membersInFormat_of_membersOfWritten? (depth - 1) read)

theorem itemsInFormat_of_itemsOfWritten? (depth : Nat) : ∀ {items : List Written} {vs : List Json},
    itemsOfWritten? depth items = some vs → ItemsInFormat vs
  | [], vs, h => by
    obtain rfl := Option.some.inj h
    trivial
  | w :: items, vs, h => by
    unfold itemsOfWritten? at h
    split at h
    · rename_i v rest first others
      obtain rfl := Option.some.inj h
      exact ⟨inFormat_of_ofWritten? depth first, itemsInFormat_of_itemsOfWritten? depth others⟩
    · cases h

theorem membersInFormat_of_membersOfWritten? (depth : Nat) :
    ∀ {members : List (List Piece × Written)} {es : Fields},
      membersOfWritten? depth members = some es → MembersInFormat es
  | [], es, h => by
    obtain rfl := Option.some.inj h
    trivial
  | (name, w) :: members, es, h => by
    unfold membersOfWritten? at h
    split at h
    · rename_i k v rest _ first others
      obtain rfl := Option.some.inj h
      exact ⟨inFormat_of_ofWritten? depth first, membersInFormat_of_membersOfWritten? depth others⟩
    · cases h

end

/-- Every value that is read from a text holds numbers of the format only. -/
theorem inFormat_of_ofText? {s : String} {v : Json} (h : ofText? s = some v) : InFormat v := by
  obtain ⟨w, -, read⟩ := Option.bind_eq_some_iff.1 h
  exact inFormat_of_ofWritten? nestingLimit read

end Formwork.Json
