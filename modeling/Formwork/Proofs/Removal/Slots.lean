import Formwork.Proofs.Layout.Naming
import Formwork.Repeat.Slot.Lemmas
import Mathlib.Data.List.TakeWhile

/-!
# Names read as slots

A name is in a slot of a group if the stem, digits and an underscore come first in it. What follows does
not matter, so a name in a slot stays in it however it is prolonged, and a name that is prolonged by
anything without an underscore comes into no other slot. Of the names that read as one slot, the one
that is written for it is the greatest, since all others have leading zeros.
-/
namespace Formwork

namespace Slot

theorem eq_append_of_isPrefixOf? {stem name tail : List Char} (h : stem.isPrefixOf? name = some tail) :
    name = stem ++ tail := by
  induction stem generalizing name with
  | nil => exact Option.some.inj h
  | cons c stem ih =>
    cases name with
    | nil => cases h
    | cons d name =>
      have step : (c :: stem).isPrefixOf? (d :: name) =
          if c == d then stem.isPrefixOf? name else none := rfl
      rw [step] at h
      split at h
      · rename_i same
        rw [← eq_of_beq same, ih h]
        rfl
      · cases h

theorem tail?_eq_some_iff {stem name : String} {tail : List Char} :
    tail? stem name = some tail ↔ name.toList = stem.toList ++ tail := by
  constructor
  · exact eq_append_of_isPrefixOf?
  · intro h
    rw [tail?, h, isPrefixOf?_append]

/-- A name is in a slot if it consists of the stem, digits, an underscore and the rest. -/
theorem ofName?_eq_some_iff {stem name : String} {s : Slot} :
    ofName? stem name = some s ↔ ∃ digits, (∀ c ∈ digits, c ≠ '_') ∧
      indexOfChars? digits = some s.index ∧
      name.toList = stem.toList ++ (digits ++ '_' :: s.rest.toList) := by
  obtain ⟨index, rest⟩ := s
  constructor
  · intro h
    obtain ⟨tail, found, h⟩ := Option.bind_eq_some_iff.1 h
    have split := List.takeWhile_append_dropWhile (p := fun c : Char => decide (c ≠ '_')) (l := tail)
    have stopped := List.head?_dropWhile_not (fun c : Char => decide (c ≠ '_')) tail
    have before : ∀ c ∈ tail.takeWhile fun c : Char => decide (c ≠ '_'), c ≠ '_' := by
      intro c hc
      simpa using List.mem_takeWhile_imp hc
    cases after : tail.dropWhile fun c : Char => decide (c ≠ '_') with
    | nil =>
      simp only [after] at h
      cases h
    | cons c others =>
      simp only [after] at h
      obtain ⟨read, hread, same⟩ := Option.bind_eq_some_iff.1 h
      obtain ⟨rfl, rfl⟩ : read = index ∧ String.ofList others = rest := by
        simpa using Option.some.inj same
      rw [after, List.head?_cons] at stopped
      obtain rfl : c = '_' := by simpa using stopped
      refine ⟨_, before, hread, ?_⟩
      rw [tail?_eq_some_iff.1 found, String.toList_ofList, ← after, split]
  · rintro ⟨digits, plain, hindex, hname⟩
    unfold ofName?
    rw [tail?_eq_some_iff.2 hname]
    simp only [Option.bind_eq_bind, Option.bind_some]
    rw [takeWhile_underscore plain, dropWhile_underscore plain, hindex]
    simp

/-- A name no longer than the stem is in no slot. -/
theorem ofName?_of_length_le {stem name : String} (h : name.length ≤ stem.length) :
    ofName? stem name = none := by
  rw [Option.eq_none_iff_forall_ne_some]
  intro s found
  obtain ⟨digits, -, -, chars⟩ := ofName?_eq_some_iff.1 found
  have lengths := congrArg List.length chars
  rw [List.length_append, List.length_append, List.length_cons, String.length_toList,
    String.length_toList] at lengths
  omega

theorem index_lt_of_ofName? {stem name : String} {s : Slot} (h : ofName? stem name = some s) :
    s.index < indexLimit := by
  obtain ⟨digits, -, read, -⟩ := ofName?_eq_some_iff.1 h
  exact (indexOfChars?_eq_some_iff.1 read).2

/-- A name in a slot stays in it when it is prolonged. -/
theorem ofName?_append {stem name : String} {s : Slot} (h : ofName? stem name = some s)
    (more : String) : ofName? stem (name ++ more) = some ⟨s.index, s.rest ++ more⟩ := by
  obtain ⟨digits, plain, read, hname⟩ := ofName?_eq_some_iff.1 h
  refine ofName?_eq_some_iff.2 ⟨digits, plain, read, ?_⟩
  simp [String.toList_append, hname]

theorem eq_append_of_underscore {front back name more : List Char}
    (h : front ++ '_' :: back = name ++ more) (plain : '_' ∉ more) :
    ∃ rest, name = front ++ '_' :: rest := by
  rcases List.append_eq_append_iff.1 h with ⟨rest, rfl, split⟩ | ⟨rest, -, rfl⟩
  · cases rest with
    | nil =>
      rw [List.nil_append] at split
      exact absurd (split ▸ List.mem_cons_self) plain
    | cons c rest =>
      obtain ⟨rfl, -⟩ := List.cons.inj split
      exact ⟨rest, rfl⟩
  · exact absurd (List.mem_append_right rest List.mem_cons_self) plain

/-- What a name is prolonged by does not bring it into a slot without an underscore. -/
theorem ofName?_of_append {stem name more : String} (plain : '_' ∉ more.toList) {s : Slot}
    (h : ofName? stem (name ++ more) = some s) :
    ∃ rest, ofName? stem name = some ⟨s.index, rest⟩ := by
  obtain ⟨digits, before, read, hname⟩ := ofName?_eq_some_iff.1 h
  rw [String.toList_append, ← List.append_assoc] at hname
  obtain ⟨rest, hname⟩ := eq_append_of_underscore hname.symm plain
  refine ⟨String.ofList rest, ofName?_eq_some_iff.2 ⟨digits, before, read, ?_⟩⟩
  rw [hname, String.toList_ofList, List.append_assoc]

theorem underscore_not_mem_ofNat (n : Nat) : '_' ∉ (Text.ofNat n).toList := by
  intro h
  rw [Text.ofNat, String.toList_ofList] at h
  exact ne_underscore_of_isDigit (Text.isDigit_of_mem_numeral h) rfl

theorem ofName?_opening (stem : String) {n : Nat} (h : n < indexLimit) (rest : String) :
    ofName? stem (Frame.opening ⟨stem, n⟩ ++ rest) = some ⟨n, rest⟩ :=
  ofName?_name stem (s := ⟨n, rest⟩) h

end Slot

namespace Removal

/-- The name is not in the slot of the instance removed and in none of a later instance. -/
def Spares (r : Removal) (name : String) : Prop :=
  ∀ s, Slot.ofName? r.stem name = some s → s.index < r.index ∨ r.count < s.index

def opening (r : Removal) (n : Nat) : String := Frame.opening ⟨r.stem, n⟩

theorem opening_append (r : Removal) (n : Nat) (rest : String) :
    r.opening n ++ rest = Slot.name r.stem ⟨n, rest⟩ := rfl

variable {r : Removal} {name : String}

theorem spares_of_ofName?_eq_none (h : Slot.ofName? r.stem name = none) : r.Spares name := by
  intro s found
  rw [h] at found
  cases found

theorem Spares.of_append {more : String} (h : r.Spares (name ++ more)) : r.Spares name :=
  fun s found => h ⟨s.index, s.rest ++ more⟩ (Slot.ofName?_append found more)

/-- What has no underscore in it may follow a name. -/
theorem spares_append_iff {more : String} (plain : '_' ∉ more.toList) :
    r.Spares (name ++ more) ↔ r.Spares name := by
  refine ⟨.of_append, fun h s found => ?_⟩
  obtain ⟨rest, found⟩ := Slot.ofName?_of_append plain found
  exact h ⟨s.index, rest⟩ found

theorem spares_groupVariant_iff (candidate : String) (n : Nat) :
    r.Spares (groupVariant candidate n) ↔ r.Spares candidate :=
  spares_append_iff (Slot.underscore_not_mem_ofNat n)

theorem spares_controlVariant_iff (candidate : String) (n : Nat) :
    r.Spares (controlVariant candidate n) ↔ r.Spares (candidate ++ "__") :=
  spares_append_iff (Slot.underscore_not_mem_ofNat n)

section

variable {n : Nat} (limit : r.count < Slot.indexLimit) (last : n ≤ r.count)

include limit last

theorem ofName?_opening (rest : String) :
    Slot.ofName? r.stem (r.opening n ++ rest) = some ⟨n, rest⟩ :=
  Slot.ofName?_opening r.stem (by omega) rest

theorem spares_opening (before : n < r.index) (rest : String) : r.Spares (r.opening n ++ rest) := by
  intro s found
  rw [ofName?_opening limit last] at found
  obtain rfl := Option.some.inj found
  exact .inl before

theorem not_spares_opening (after : r.index ≤ n) (rest : String) :
    ¬r.Spares (r.opening n ++ rest) := by
  intro h
  have := h ⟨n, rest⟩ (ofName?_opening limit last rest)
  dsimp only at this
  omega

theorem rename?_opening (after : r.index < n) (rest : String) :
    r.rename? (r.opening n ++ rest) = some (r.opening (n - 1) ++ rest) := by
  have other : ¬n = r.index := by omega
  simp only [rename?, ofName?_opening limit last, other, if_false, after, last, and_self, if_true]
  rfl

end

/-- Nothing is left of the instance that is removed. -/
theorem rename?_opening_self (limit : r.count < Slot.indexLimit) (range : r.index ≤ r.count)
    (rest : String) : r.rename? (r.opening r.index ++ rest) = none := by
  simp only [rename?, ofName?_opening limit range, if_true]

/-- A name is spared just if it stays as it is. -/
theorem spares_iff_rename? (range : r.index ≤ r.count) : r.Spares name ↔ r.rename? name = some name := by
  unfold Spares rename?
  cases found : Slot.ofName? r.stem name with
  | none => simp
  | some s =>
    simp only [Option.some.injEq, forall_eq']
    split
    · simp
      omega
    · split
      · rename_i later
        constructor
        · omega
        · intro same
          have moved := congrArg (Slot.ofName? r.stem) (Option.some.inj same)
          have small := Slot.index_lt_of_ofName? found
          rw [found, Slot.ofName?_name r.stem (by dsimp only; omega)] at moved
          have index := congrArg Slot.index (Option.some.inj moved)
          dsimp only at index
          omega
      · simp
        omega

end Removal

end Formwork
