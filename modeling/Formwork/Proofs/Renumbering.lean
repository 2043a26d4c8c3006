import Formwork.Document
import Formwork.Proofs.Removal.Shifting
import Mathlib.Data.List.Basic

/-!
# Renumbering without loss

A name may read as an index with leading zeros, and then two names can become one. Where the digits after the
stem are always a numeral, as in identifiers, a removal takes every name to at most one and no two names to the
same: it drops what is in the instance removed, brings later instances one down and leaves everything else. So
nothing of a table is lost or mixed up, whatever order it is gone through in, and it makes no difference whether
two documents are merged before a removal or after it.
-/
namespace Formwork

namespace Slot

/-- Where digits and an underscore follow the stem in a name, the digits are the numeral of a number. -/
def Proper (stem name : String) : Prop :=
  ∀ digits rest : List Char, digits ≠ [] → (∀ c ∈ digits, c.isDigit = true) →
    name.toList = stem.toList ++ (digits ++ '_' :: rest) → ∃ n, digits = Text.numeral n

variable {stem name : String}

/-- A proper name that reads as a slot is the one that is written for it. -/
theorem Proper.eq_name (proper : Proper stem name) {s : Slot} (found : ofName? stem name = some s) :
    name = Slot.name stem s := by
  obtain ⟨digits, -, read, placed⟩ := ofName?_eq_some_iff.1 found
  obtain ⟨⟨filled, plain, value⟩, -⟩ := indexOfChars?_eq_some_iff.1 read
  obtain ⟨n, rfl⟩ := proper digits s.rest.toList filled plain placed
  rw [Text.readDigits_numeral] at value
  subst value
  apply String.toList_inj.1
  rw [placed, name_eq, String.toList_append, String.toList_ofList]

theorem proper_iff : Proper stem name ↔ ∀ tail ∈ tail? stem name, '_' ∈ tail →
    ∀ n ∈ Text.natOfChars? (tail.takeWhile (· ≠ '_')),
      tail.takeWhile (· ≠ '_') = Text.numeral n := by
  constructor
  · intro proper tail hasStem underscore n read
    obtain ⟨row, rest, rfl, first⟩ := List.eq_append_cons_of_mem underscore
    rw [takeWhile_underscore fun c hc same => first (same ▸ hc)] at read ⊢
    obtain ⟨filled, plain, value⟩ := Text.natOfChars?_eq_some_iff.1 read
    obtain ⟨m, rfl⟩ := proper row rest filled plain (tail?_eq_some_iff.1 hasStem)
    rw [Text.readDigits_numeral] at value
    rw [value]
  · intro proper digits rest filled plain placed
    have numeral := proper _ (tail?_eq_some_iff.2 placed) (by simp) (Text.readDigits 0 digits)
    rw [takeWhile_underscore fun c hc => ne_underscore_of_isDigit (plain c hc)] at numeral
    exact ⟨_, numeral (Text.natOfChars?_eq_some_iff.2 ⟨filled, plain, rfl⟩)⟩

instance : Decidable (Proper stem name) := decidable_of_iff _ proper_iff.symm

end Slot

namespace Removal

variable {r : Removal}

/-- Where a removal takes a name: one down if it is written for a later instance, and nowhere else if it is
written for none from the one removed to the last. -/
inductive Takes (r : Removal) : String → String → Prop
  | down (s : Slot) (after : r.index < s.index) (last : s.index ≤ r.count) :
      Takes r (Slot.name r.stem s) (Slot.name r.stem ⟨s.index - 1, s.rest⟩)
  | stays (name : String)
      (apart : ∀ s, name = Slot.name r.stem s → s.index < r.index ∨ r.count < s.index) :
      Takes r name name

section

variable (range : r.index ≤ r.count) (limit : r.count < Slot.indexLimit) {name : String}
  (proper : Slot.Proper r.stem name)

include range limit proper

theorem rename?_eq_some_iff {later : String} : r.rename? name = some later ↔ r.Takes name later := by
  constructor
  · intro renamed
    rcases rename?_cases renamed with ⟨spared, rfl⟩ | ⟨s, found, after, last, rfl⟩
    · refine .stays later fun s written => ?_
      by_cases last : s.index ≤ r.count
      · have small : s.index < Slot.indexLimit := by omega
        exact spared s (by rw [written, Slot.ofName?_name r.stem small])
      · exact .inr (by omega)
    · obtain rfl := proper.eq_name found
      exact .down s after last
  · intro taken
    cases taken with
    | down s after last => exact rename?_opening limit last after s.rest
    | stays _ apart => exact (spares_iff_rename? range).1 fun s found => apart s (proper.eq_name found)

theorem rename?_eq_none_iff : r.rename? name = none ↔ ∃ rest, name = r.opening r.index ++ rest := by
  constructor
  · intro dropped
    cases found : Slot.ofName? r.stem name with
    | none => simp [rename?, found] at dropped
    | some s =>
      have gone : s.index = r.index := by
        by_contra other
        simp only [rename?, found, other, if_false] at dropped
        split at dropped <;> cases dropped
      exact ⟨s.rest, gone ▸ proper.eq_name found⟩
  · rintro ⟨rest, rfl⟩
    exact rename?_opening_self limit range rest

/-- A name is taken nowhere just if it is written for the instance removed. -/
theorem not_takes_iff : (∀ later, ¬r.Takes name later) ↔ ∃ rest, name = r.opening r.index ++ rest := by
  rw [← rename?_eq_none_iff range limit proper, Option.eq_none_iff_forall_ne_some]
  exact forall_congr' fun later => not_congr (rename?_eq_some_iff range limit proper).symm

end

/-- Of proper names no two become one. -/
theorem eq_of_rename? (limit : r.count < Slot.indexLimit) {name other later : String}
    (proper : Slot.Proper r.stem name) (proper' : Slot.Proper r.stem other)
    (renamed : r.rename? name = some later) (renamed' : r.rename? other = some later) : name = other := by
  rcases rename?_cases renamed with ⟨spared, rfl⟩ | ⟨s, found, after, last, rfl⟩
  · exact (eq_of_rename?_of_spares limit renamed' spared).symm
  · have found' := ofName?_of_rename? limit after last renamed'
    exact (proper.eq_name found).trans (proper'.eq_name found').symm

/-- A name is taken to one name, and two names are taken to two. With leading zeros two names may become one. -/
theorem Takes.eq_iff (range : r.index ≤ r.count) (limit : r.count < Slot.indexLimit)
    {name other later later' : String} (proper : Slot.Proper r.stem name)
    (proper' : Slot.Proper r.stem other) (taken : r.Takes name later) (taken' : r.Takes other later') :
    name = other ↔ later = later' := by
  have renamed := (rename?_eq_some_iff range limit proper).2 taken
  have renamed' := (rename?_eq_some_iff range limit proper').2 taken'
  constructor
  · rintro rfl
    exact Option.some.inj (renamed.symm.trans renamed')
  · rintro rfl
    exact eq_of_rename? limit proper proper' renamed renamed'

example : (⟨"guests_", 2, 4⟩ : Removal).rename? "guests_03_name" =
    (⟨"guests_", 2, 4⟩ : Removal).rename? "guests_3_name" := by
  decide +kernel

theorem ascending_shift {α : Type} (r : Removal) (t : Table α) : (r.shift t).Ascending :=
  Table.ascending_ofPairs _

def renamedEntries {α : Type} (r : Removal) (t : Table α) : Table α :=
  t.filterMap fun e => (r.rename? e.1).map fun name => (name, e.2)

section

variable {α : Type} {t : Table α}

theorem mem_renamedEntries {later : String} {v : α} :
    (later, v) ∈ r.renamedEntries t ↔ ∃ name, (name, v) ∈ t ∧ r.rename? name = some later := by
  constructor
  · intro there
    obtain ⟨⟨name, w⟩, here, moved⟩ := List.mem_filterMap.1 there
    obtain ⟨_, renamed, same⟩ := Option.map_eq_some_iff.1 moved
    obtain ⟨rfl, rfl⟩ := Prod.mk.inj same
    exact ⟨name, here, renamed⟩
  · rintro ⟨name, here, renamed⟩
    exact List.mem_filterMap.2 ⟨(name, v), here, by rw [renamed, Option.map_some]⟩

theorem names_renamedEntries (r : Removal) (t : Table α) :
    Table.names (r.renamedEntries t) = (Table.names t).filterMap r.rename? := by
  rw [Table.names, renamedEntries, List.map_filterMap, Table.names, List.filterMap_map]
  refine List.filterMap_congr fun e _ => ?_
  rw [Option.map_map]
  exact congrFun Option.map_id (r.rename? e.1)

variable (limit : r.count < Slot.indexLimit) (distinct : (Table.names t).Nodup)
  (proper : ∀ name ∈ Table.names t, Slot.Proper r.stem name)

include limit distinct proper

theorem nodup_names_renamedEntries : (Table.names (r.renamedEntries t)).Nodup := by
  rw [names_renamedEntries, List.Nodup, List.pairwise_filterMap]
  refine distinct.imp_of_mem fun hname hother apart later renamed later' renamed' same => ?_
  subst same
  exact apart (eq_of_rename? limit (proper _ hname) (proper _ hother) renamed renamed')

/-- What stands in a table after the removal is what stood in it under a name taken there. -/
theorem get?_shift_eq_some_iff {later : String} {v : α} :
    Table.get? later (r.shift t) = some v ↔ ∃ name, (name, v) ∈ t ∧ r.rename? name = some later := by
  have apart := nodup_names_renamedEntries limit distinct proper
  have built : r.shift t = Table.ofPairs (r.renamedEntries t) := rfl
  rw [built, Table.get?_ofPairs apart, ← mem_renamedEntries]
  exact ⟨Table.mem_of_get?, Table.get?_of_mem apart⟩

/-- The entries after a removal are those before it, each where its name is taken. -/
theorem mem_shift_iff (range : r.index ≤ r.count) {later : String} {v : α} :
    (later, v) ∈ r.shift t ↔ ∃ name, (name, v) ∈ t ∧ r.Takes name later := by
  rw [← Table.get?_eq_some_iff (ascending_shift r t), get?_shift_eq_some_iff limit distinct proper]
  refine exists_congr fun name => and_congr_right fun here => ?_
  exact rename?_eq_some_iff range limit (proper name (List.mem_map.2 ⟨_, here, rfl⟩))

/-- Under its new name, a proper name keeps what stands under it. -/
theorem get?_shift_of_rename? {name later : String} (proper' : Slot.Proper r.stem name)
    (renamed : r.rename? name = some later) : Table.get? later (r.shift t) = Table.get? name t := by
  apply Option.ext
  intro v
  rw [get?_shift_eq_some_iff limit distinct proper]
  constructor
  · rintro ⟨other, here, renamed'⟩
    have there : other ∈ Table.names t := List.mem_map.2 ⟨_, here, rfl⟩
    obtain rfl := eq_of_rename? limit proper' (proper other there) renamed renamed'
    exact Table.get?_of_mem distinct here
  · intro found
    exact ⟨name, Table.mem_of_get? found, renamed⟩

end

/-- Nothing comes to stand under a name to which no proper name is changed. -/
theorem get?_shift_of_not_renamed {α : Type} {t : Table α}
    (proper : ∀ name ∈ Table.names t, Slot.Proper r.stem name) {later : String}
    (h : ∀ name, Slot.Proper r.stem name → r.rename? name ≠ some later) :
    Table.get? later (r.shift t) = none := by
  rw [Table.get?_eq_none_iff]
  intro there
  obtain ⟨name, here, renamed⟩ := mem_names_shift.1 there
  exact h name (proper name here) renamed

/-- Writing a table over another and a removal may change places: at most one proper name is changed to a given
one, whichever of the tables has it. -/
theorem shift_override {α : Type} {t newer : Table α} (limit : r.count < Slot.indexLimit)
    (ascending : t.Ascending) (ascending' : newer.Ascending)
    (proper : ∀ name ∈ Table.names t, Slot.Proper r.stem name)
    (proper' : ∀ name ∈ Table.names newer, Slot.Proper r.stem name) :
    r.shift (Table.override t newer) = Table.override (r.shift t) (r.shift newer) := by
  have both : (Table.override t newer).Ascending := Table.ascending_override ascending
  have properBoth : ∀ name ∈ Table.names (Table.override t newer), Slot.Proper r.stem name := by
    intro name there
    exact (Table.mem_names_override.1 there).elim (proper' name) (proper name)
  refine Table.ext (ascending_shift r _) (Table.ascending_override (ascending_shift r t)) ?_
  intro later
  rw [Table.get?_override (ascending_shift r newer)]
  by_cases taken : ∃ name, Slot.Proper r.stem name ∧ r.rename? name = some later
  · obtain ⟨name, own, renamed⟩ := taken
    rw [get?_shift_of_rename? limit both.distinct properBoth own renamed,
      get?_shift_of_rename? limit ascending.distinct proper own renamed,
      get?_shift_of_rename? limit ascending'.distinct proper' own renamed,
      Table.get?_override ascending']
  · have never : ∀ name, Slot.Proper r.stem name → r.rename? name ≠ some later :=
      fun name own renamed => taken ⟨name, own, renamed⟩
    rw [get?_shift_of_not_renamed properBoth never, get?_shift_of_not_renamed proper never,
      get?_shift_of_not_renamed proper' never, Option.or_none]

/-- A table before a removal and after it, with nothing lost and nothing mixed up. -/
structure Renumbers {α : Type} (r : Removal) (t after : Table α) : Prop where
  /-- What stands somewhere afterwards is what stood under a name that is taken there. -/
  entries : ∀ later v, (later, v) ∈ after ↔ ∃ name, (name, v) ∈ t ∧ r.Takes name later
  /-- What is dropped is what is in the instance removed. -/
  dropped : ∀ name ∈ t.names,
    (∀ later, ¬r.Takes name later) ↔ ∃ rest, name = r.opening r.index ++ rest
  /-- One name is taken to one name, and two names to two. -/
  apart : ∀ name ∈ t.names, ∀ other ∈ t.names, ∀ later later', r.Takes name later →
    r.Takes other later' → (name = other ↔ later = later')
  distinct : after.names.Nodup
  /-- No instance is the last of as many as there were. -/
  vacated : ∀ later ∈ after.names, ∀ s, Slot.ofName? r.stem later = some s → s.index ≠ r.count

/-- A removal loses and mixes nothing in a table, in whatever order the table lists its entries, and documents
may be merged before it or after it. Counts are 32-bit numbers. -/
theorem renumbers_shift (range : r.index ≤ r.count) (limit : r.count < Slot.indexLimit) :
    (∀ (α : Type) (t : Table α), t.names.Nodup → (∀ name ∈ t.names, Slot.Proper r.stem name) →
      r.Renumbers t (r.shift t)) ∧
    ∀ stored current : Fields, stored.Ascending → current.Ascending →
      (∀ name ∈ stored.names, Slot.Proper r.stem name) →
      (∀ name ∈ current.names, Slot.Proper r.stem name) →
      r.shift (Document.merge stored current) =
        Document.merge (r.shift stored) (r.shift current) := by
  constructor
  · intro α t distinct proper
    exact {
      entries := fun _ _ => mem_shift_iff limit distinct proper range
      dropped := fun name here => not_takes_iff range limit (proper name here)
      apart := fun name here other there _ _ taken taken' =>
        taken.eq_iff range limit (proper name here) (proper other there) taken'
      distinct := (ascending_shift r t).distinct
      vacated := fun _ there _ found => index_ne_count range there found }
  · intro stored current ascending ascending' proper proper'
    exact shift_override limit ascending ascending' proper proper'

def secondGuest : Removal := ⟨"guests_", 2, 4⟩

/-- What is stored of the guests, with a name that only looks as if it were of one. -/
def storedGuests : Fields :=
  [("guests_1_name", .str "Ann"), ("guests_2_dishes_1_dish", .str "soup"), ("guests_2_name", .str "Bob"),
    ("guests_3_name", .str "Cid"), ("guests_x_name", .null), ("room", .str "blue")]

def currentGuests : Fields :=
  [("guests_2_name", .str "Bea"), ("guests_3_name", .str "Cem"), ("guests_4_name", .str "Dan")]

theorem renumbers_shift_guests :
    secondGuest.index ≤ secondGuest.count ∧ secondGuest.count < Slot.indexLimit ∧
      storedGuests.Ascending ∧ currentGuests.Ascending ∧
      (∀ name ∈ storedGuests.names, Slot.Proper secondGuest.stem name) ∧
      (∀ name ∈ currentGuests.names, Slot.Proper secondGuest.stem name) ∧
      secondGuest.Renumbers storedGuests (secondGuest.shift storedGuests) ∧
      secondGuest.shift (Document.merge storedGuests currentGuests) =
        Document.merge (secondGuest.shift storedGuests) (secondGuest.shift currentGuests) ∧
      (Document.merge (secondGuest.shift storedGuests) (secondGuest.shift currentGuests)).names =
        ["guests_1_name", "guests_2_name", "guests_3_name", "guests_x_name", "room"] := by
  have range : secondGuest.index ≤ secondGuest.count := by decide
  have limit : secondGuest.count < Slot.indexLimit := by decide +kernel
  have stored : storedGuests.Ascending := by
    unfold storedGuests Table.Ascending
    decide +kernel
  have current : currentGuests.Ascending := by
    unfold currentGuests Table.Ascending
    decide +kernel
  have proper : ∀ name ∈ storedGuests.names, Slot.Proper secondGuest.stem name := by decide +kernel
  have proper' : ∀ name ∈ currentGuests.names, Slot.Proper secondGuest.stem name := by decide +kernel
  obtain ⟨renumbers, merges⟩ := renumbers_shift range limit
  refine ⟨range, limit, stored, current, proper, proper',
    renumbers Json storedGuests stored.distinct proper,
    merges storedGuests currentGuests stored current proper proper', ?_⟩
  decide +kernel

end Removal

end Formwork
