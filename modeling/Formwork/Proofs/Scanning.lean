import Formwork.Proofs.Layout.Instances
import Formwork.Proofs.Removal.Slots

/-!
# Two readings of an index

How many instances a document tells of is read by a search in its names: for the stem, a row of digits and an
underscore, where digits of every script count. What is renumbered after a removal is read from the text up to
the first underscore. All that is said of the search is that it gives back the row of a match, if there is one,
and that ASCII digits are digits and the underscore is none. Then both readings find the same index in every
name, and in the identifier of a field they find the one that it was made with.
-/
namespace Formwork

namespace Slot

/-- A match of the pattern: a row of digits stands in the name between the stem and an underscore. -/
structure Captures (digit : Char → Bool) (stem name : String) (row : List Char) : Prop where
  filled : row ≠ []
  digits : ∀ c ∈ row, digit c = true
  placed : ∃ rest, name.toList = stem.toList ++ (row ++ '_' :: rest)

/-- What a search for the pattern gives back: the row of a match, and nothing only if there is no match. -/
structure Finds (digit : Char → Bool) (stem name : String) (found : Option (List Char)) : Prop where
  sound : ∀ row, found = some row → Captures digit stem name row
  complete : found = none → ∀ row, ¬Captures digit stem name row

theorem Captures.finds {digit : Char → Bool} {stem name : String} {row : List Char}
    (h : Captures digit stem name row) : Finds digit stem name (some row) :=
  ⟨fun _ same => Option.some.inj same ▸ h, nofun⟩

theorem ofName?_identifier (f : Frame) (raw : String) (h : f.index < indexLimit) :
    ofName? f.stem (f.identifier raw) = some ⟨f.index, Identifier.ofRaw raw⟩ :=
  ofName?_opening f.stem h (Identifier.ofRaw raw)

section

variable {digit : Char → Bool} {stem name : String}

/-- A match reads as a slot just if its digits are those of an index. -/
theorem Captures.index?_eq {row : List Char} (stop : digit '_' = false)
    (h : Captures digit stem name row) : (ofName? stem name).map index = indexOfChars? row := by
  obtain ⟨rest, placed⟩ := h.placed
  have plain : ∀ c ∈ row, c ≠ '_' := by
    rintro c hc rfl
    exact absurd (h.digits _ hc) (by rw [stop]; decide)
  apply Option.ext
  intro n
  constructor
  · intro slot
    obtain ⟨s, found, rfl⟩ := Option.map_eq_some_iff.1 slot
    obtain ⟨row', plain', read, placed'⟩ := ofName?_eq_some_iff.1 found
    have same := List.append_cancel_left (placed.symm.trans placed')
    obtain ⟨rfl, -⟩ := eq_of_append_underscore plain plain' same
    exact read
  · intro read
    refine Option.map_eq_some_iff.2 ⟨⟨n, String.ofList rest⟩, ?_, rfl⟩
    refine ofName?_eq_some_iff.2 ⟨row, plain, read, ?_⟩
    rw [placed, String.toList_ofList]

/-- The digits of a slot are matched. -/
theorem exists_captures_of_ofName? (ascii : ∀ c, c.isDigit = true → digit c = true) {s : Slot}
    (h : ofName? stem name = some s) : ∃ row, Captures digit stem name row := by
  obtain ⟨row, -, read, placed⟩ := ofName?_eq_some_iff.1 h
  obtain ⟨⟨filled, digits, -⟩, -⟩ := indexOfChars?_eq_some_iff.1 read
  exact ⟨row, filled, fun c hc => ascii c (digits c hc), _, placed⟩

theorem ofName?_of_not_captured (ascii : ∀ c, c.isDigit = true → digit c = true)
    (h : ∀ row, ¬Captures digit stem name row) : ofName? stem name = none := by
  rw [Option.eq_none_iff_forall_ne_some]
  intro s read
  obtain ⟨row, captured⟩ := exists_captures_of_ofName? ascii read
  exact h row captured

/-- What is found reads as the index of the slot that the name is in. -/
theorem Finds.index?_eq {found : Option (List Char)} (ascii : ∀ c, c.isDigit = true → digit c = true)
    (stop : digit '_' = false) (h : Finds digit stem name found) :
    found.bind indexOfChars? = (ofName? stem name).map index := by
  cases found with
  | some row => exact ((h.sound row rfl).index?_eq stop).symm
  | none =>
    rw [ofName?_of_not_captured ascii (h.complete rfl)]
    rfl

theorem isDecimalDigit_underscore : Text.isDecimalDigit '_' = false := by decide

/-- The digits that a name is scanned for are those of the match. -/
theorem Captures.scanIndex?_eq {row : List Char} (h : Captures Text.isDecimalDigit stem name row) :
    scanIndex? stem name = indexOfChars? row := by
  obtain ⟨rest, placed⟩ := h.placed
  unfold scanIndex?
  rw [tail?_eq_some_iff.2 placed]
  simp only [Option.bind_eq_bind, Option.bind_some]
  rw [takeWhile_append_of_stop h.digits isDecimalDigit_underscore,
    dropWhile_append_of_stop h.digits isDecimalDigit_underscore]
  rfl

theorem exists_captures_of_scanIndex? {n : Nat} (h : scanIndex? stem name = some n) :
    ∃ row, Captures Text.isDecimalDigit stem name row := by
  obtain ⟨tail, found, h⟩ := Option.bind_eq_some_iff.1 h
  have whole := List.takeWhile_append_dropWhile (p := Text.isDecimalDigit) (l := tail)
  split at h
  · rename_i rest stopped
    refine ⟨tail.takeWhile Text.isDecimalDigit, (indexOfChars?_eq_some_iff.1 h).1.1, ?_, rest, ?_⟩
    · intro c hc
      exact List.mem_takeWhile_imp hc
    · rw [tail?_eq_some_iff.1 found, ← stopped, whole]
  · cases h

/-- Scanning a name finds the index of the slot that it is in, and none if it is in no slot. -/
theorem scanIndex?_eq (stem name : String) : scanIndex? stem name = (ofName? stem name).map index := by
  by_cases captured : ∃ row, Captures Text.isDecimalDigit stem name row
  · obtain ⟨row, captured⟩ := captured
    exact captured.scanIndex?_eq.trans (captured.index?_eq isDecimalDigit_underscore).symm
  · have unscanned : scanIndex? stem name = none := by
      rw [Option.eq_none_iff_forall_ne_some]
      intro n scanned
      exact captured (exists_captures_of_scanIndex? scanned)
    have outside : ofName? stem name = none :=
      ofName?_of_not_captured (fun _ => Text.isDecimalDigit_of_isDigit) (not_exists.1 captured)
    rw [unscanned, outside]
    rfl

end

/-- The highest index among names is that of a slot in which one of them is. -/
theorem highestIndex_eq (stem : String) (names : List String) :
    highestIndex stem names = ((names.filterMap (ofName? stem)).map index).max?.getD 0 := by
  have read : names.filterMap (scanIndex? stem) = (names.filterMap (ofName? stem)).map index := by
    rw [List.map_filterMap]
    exact List.filterMap_congr fun name _ => scanIndex?_eq stem name
  rw [highestIndex, read]
  cases (names.filterMap (ofName? stem)).map index with
  | nil => rfl
  | cons n indices =>
    rw [List.max?_cons', List.foldl_cons, Nat.zero_max]
    rfl

/-- An identifier is read back as the slot that it was made for; of any name, what a search finds and what is
read up to the first underscore is the same index; and the highest index is that of the names read as slots. -/
theorem readings_agree (stem : String) :
    (∀ n raw, n < indexLimit →
      ofName? stem (Frame.identifier ⟨stem, n⟩ raw) = some ⟨n, Identifier.ofRaw raw⟩) ∧
    (∀ digit : Char → Bool, (∀ c, c.isDigit = true → digit c = true) → digit '_' = false →
      ∀ name found, Finds digit stem name found →
        found.bind indexOfChars? = (ofName? stem name).map index) ∧
    (∀ name, scanIndex? stem name = (ofName? stem name).map index) ∧
    ∀ names, highestIndex stem names = ((names.filterMap (ofName? stem)).map index).max?.getD 0 := by
  refine ⟨?_, ?_, scanIndex?_eq stem, highestIndex_eq stem⟩
  · intro n raw small
    exact ofName?_identifier ⟨stem, n⟩ raw small
  · intro digit ascii stop name found finds
    exact finds.index?_eq ascii stop

/-- The last index that there can be is read back. Digits of another script are found and are no index, and
leading zeros do not count. -/
theorem readings_agree_guests :
    4294967295 < indexLimit ∧
      ofName? "guests_" (Frame.identifier ⟨"guests_", 4294967295⟩ "first name") =
        some ⟨4294967295, "first_name"⟩ ∧
      Finds Text.isDecimalDigit "guests_" "guests_٣_name" (some ['٣']) ∧
      (ofName? "guests_" "guests_٣_name").map index = none ∧
      Finds Text.isDecimalDigit "guests_" "guests_007_name" (some ['0', '0', '7']) ∧
      (ofName? "guests_" "guests_007_name").map index = some 7 ∧
      highestIndex "guests_" ["guests_٣_name", "guests_007_name", "guests_2_name", "guests_x"] = 7 := by
  have small : 4294967295 < indexLimit := by decide +kernel
  have foreign : Captures Text.isDecimalDigit "guests_" "guests_٣_name" ['٣'] :=
    ⟨by decide, List.all_eq_true.1 (by decide), "name".toList, by decide +kernel⟩
  have leading : Captures Text.isDecimalDigit "guests_" "guests_007_name" ['0', '0', '7'] :=
    ⟨by decide, List.all_eq_true.1 (by decide), "name".toList, by decide +kernel⟩
  obtain ⟨written, found, -, highest⟩ := readings_agree "guests_"
  have agree := found Text.isDecimalDigit (fun _ => Text.isDecimalDigit_of_isDigit)
    isDecimalDigit_underscore
  refine ⟨small, ?_, foreign.finds, ?_, leading.finds, ?_, ?_⟩
  · rw [written 4294967295 "first name" small]
    decide +kernel
  · rw [← agree _ _ foreign.finds]
    decide
  · rw [← agree _ _ leading.finds]
    decide
  · rw [highest]
    decide +kernel

end Slot

end Formwork
