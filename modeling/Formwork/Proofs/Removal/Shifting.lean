import Formwork.Proofs.Removal.Slots
import Formwork.Repeat.Registry
import Formwork.Table.Lemmas
import Mathlib.Data.List.Induction

/-!
# Tables after a removal

Names are changed by their text, and several names may become one. What stands under a name written for
a slot survives this, since it comes last among the names that read as the slot; a name that is spared
keeps what it has, and gets nothing from any other.
-/
namespace Formwork

namespace Text

theorem digitChar_digitValue {c : Char} (h : c.isDigit = true) : digitChar (digitValue c) = c := by
  have bounds : 48 ≤ c.toNat ∧ c.toNat ≤ 57 := by
    simp only [Char.isDigit, Bool.and_eq_true, decide_eq_true_eq] at h
    exact h
  have value : 48 + digitValue c = c.toNat := by
    unfold digitValue
    omega
  rw [digitChar, value, Char.ofNat_toNat]

theorem digitValue_lt {c : Char} (h : c.isDigit = true) : digitValue c < 10 := by
  simp only [Char.isDigit, Bool.and_eq_true, decide_eq_true_eq] at h
  have upper : c.toNat ≤ 57 := h.2
  unfold digitValue
  omega

/-- A number has one numeral without leading zeros. -/
theorem eq_numeral_of_readDigits {digits : List Char} (plain : ∀ c ∈ digits, c.isDigit = true)
    (filled : digits ≠ []) (lead : digits.head? ≠ some '0') :
    digits = numeral (readDigits 0 digits) := by
  induction digits using List.reverseRec with
  | nil => exact absurd rfl filled
  | append_singleton front c ih =>
    have last := plain c (by simp)
    have small := digitValue_lt last
    have value : readDigits 0 (front ++ [c]) = readDigits 0 front * 10 + digitValue c := by
      rw [readDigits_append]
      rfl
    by_cases only : front = []
    · subst only
      rw [value, numeral, if_pos (by simpa [readDigits] using small)]
      simp [readDigits, digitChar_digitValue last]
    · have lead' : front.head? ≠ some '0' := by
        obtain ⟨first, others, rfl⟩ := List.exists_cons_of_ne_nil only
        exact lead
      have front_eq := ih (fun c hc => plain c (List.mem_append_left _ hc)) only lead'
      have positive : readDigits 0 front ≠ 0 := by
        intro zero
        rw [zero] at front_eq
        rw [front_eq] at lead'
        exact lead' (by decide +kernel)
      rw [value, numeral, if_neg (by omega)]
      have quotient : (readDigits 0 front * 10 + digitValue c) / 10 = readDigits 0 front := by omega
      have remainder : (readDigits 0 front * 10 + digitValue c) % 10 = digitValue c := by omega
      rw [quotient, remainder, ← front_eq, digitChar_digitValue last]

theorem lt_digitChar {d : Nat} (h : d < 10) (positive : d ≠ 0) : '0' < digitChar d := by
  have : d = 1 ∨ d = 2 ∨ d = 3 ∨ d = 4 ∨ d = 5 ∨ d = 6 ∨ d = 7 ∨ d = 8 ∨ d = 9 := by omega
  rcases this with h | h | h | h | h | h | h | h | h <;> subst h <;> decide

theorem lt_head_numeral {n : Nat} (h : n ≠ 0) : ∃ c rest, numeral n = c :: rest ∧ '0' < c := by
  fun_induction numeral n with
  | case1 n small => exact ⟨_, _, rfl, lt_digitChar small h⟩
  | case2 n large ih =>
    obtain ⟨c, rest, front, lt⟩ := ih (by omega)
    exact ⟨c, rest ++ [digitChar (n % 10)], by rw [front, List.cons_append], lt⟩

end Text

namespace Slot

theorem append_lt_append_iff (front a b : List Char) : front ++ a < front ++ b ↔ a < b := by
  induction front with
  | nil => exact Iff.rfl
  | cons c front ih => rw [List.cons_append, List.cons_append, List.cons_lt_cons_iff]; simp [ih]

/-- Of the names that read as a slot, the one that is written for it is the greatest. -/
theorem not_lt_of_ofName? {stem name : String} {s : Slot} (found : ofName? stem name = some s)
    (positive : s.index ≠ 0) : ¬Slot.name stem s < name := by
  obtain ⟨digits, -, read, hname⟩ := ofName?_eq_some_iff.1 found
  obtain ⟨⟨filled, plain, number⟩, -⟩ := indexOfChars?_eq_some_iff.1 read
  rw [String.lt_iff, name_eq, String.toList_append, String.toList_ofList, hname,
    append_lt_append_iff]
  by_cases lead : digits.head? = some '0'
  · obtain ⟨c, rest, numeral, lt⟩ := Text.lt_head_numeral positive
    obtain ⟨others, rfl⟩ := List.head?_eq_some_iff.1 lead
    rw [numeral, List.cons_append, List.cons_append, List.cons_lt_cons_iff]
    rintro (greater | ⟨rfl, -⟩)
    · exact absurd greater (Nat.lt_asymm lt)
    · exact absurd lt (Nat.lt_irrefl _)
  · have same := Text.eq_numeral_of_readDigits plain filled lead
    rw [number] at same
    rw [← same]
    exact List.lt_irrefl _

end Slot

namespace Table

variable {α : Type}

theorem get?_override_of_not_mem {t newer : Table α} {key : String} (h : key ∉ names newer) :
    get? key (override t newer) = get? key t := by
  induction newer generalizing t with
  | nil => rfl
  | cons e newer ih =>
    rw [names, List.map_cons, List.mem_cons, not_or] at h
    have step : override t (e :: newer) = override (insert e.1 e.2 t) newer := rfl
    rw [step, ih h.2, get?_insert_of_ne h.1]

/-- Of the pairs of one name the last one counts. -/
theorem get?_ofPairs_of_last {front back : List (String × α)} {key : String} {v : α}
    (last : key ∉ names back) : get? key (ofPairs (front ++ (key, v) :: back)) = some v := by
  have built : ofPairs (front ++ (key, v) :: back) =
      override (insert key v (ofPairs front)) back := by
    rw [ofPairs, List.foldl_append]
    rfl
  rw [built, get?_override_of_not_mem last, get?_insert_self]

theorem mem_of_get?_override {t newer : Table α} {key : String} {v : α}
    (h : get? key (override t newer) = some v) : (key, v) ∈ newer ∨ get? key t = some v := by
  induction newer generalizing t with
  | nil => exact .inr h
  | cons e newer ih =>
    rcases ih h with later | found
    · exact .inl (List.mem_cons_of_mem _ later)
    · by_cases same : key = e.1
      · subst same
        rw [get?_insert_self] at found
        obtain rfl := Option.some.inj found
        exact .inl List.mem_cons_self
      · rw [get?_insert_of_ne same] at found
        exact .inr found

/-- A pair that look-up finds, with what stands before and after it. -/
theorem split_of_get? {t : Table α} (h : t.Ascending) {key : String} {v : α}
    (found : get? key t = some v) :
    ∃ front back, t = front ++ (key, v) :: back ∧ ∀ e ∈ back, key < e.1 := by
  obtain ⟨front, back, rfl⟩ := List.append_of_mem (mem_of_get? found)
  exact ⟨front, back, rfl, (ascending_cons.1 (List.pairwise_append.1 h).2.1).1⟩

end Table

namespace Removal

variable {r : Removal}

/-- A name is spared and stays, or it is in the slot of a later instance and comes one slot down. -/
theorem rename?_cases {name later : String} (h : r.rename? name = some later) :
    (r.Spares name ∧ later = name) ∨
      ∃ s, Slot.ofName? r.stem name = some s ∧ r.index < s.index ∧ s.index ≤ r.count ∧
        later = Slot.name r.stem ⟨s.index - 1, s.rest⟩ := by
  unfold rename? at h
  cases found : Slot.ofName? r.stem name with
  | none =>
    rw [found] at h
    exact .inl ⟨spares_of_ofName?_eq_none found, (Option.some.inj h).symm⟩
  | some s =>
    simp only [found] at h
    split at h
    · cases h
    · split at h
      · rename_i later
        exact .inr ⟨s, rfl, later.1, later.2, (Option.some.inj h).symm⟩
      · left
        refine ⟨fun s' found' => ?_, (Option.some.inj h).symm⟩
        obtain rfl := Option.some.inj (found.symm.trans found')
        omega

section

variable (limit : r.count < Slot.indexLimit)

include limit

/-- A name that is spared comes from no other. -/
theorem eq_of_rename?_of_spares {name later : String} (h : r.rename? name = some later)
    (spared : r.Spares later) : name = later := by
  rcases rename?_cases h with ⟨-, same⟩ | ⟨s, -, after, last, rfl⟩
  · exact same.symm
  · have down : s.index - 1 ≤ r.count := by omega
    exact absurd spared (not_spares_opening limit down (by omega) s.rest)

/-- A name in a slot that has been moved comes from the next slot. -/
theorem ofName?_of_rename? {name rest : String} {n : Nat} (after : r.index < n) (last : n ≤ r.count)
    (h : r.rename? name = some (r.opening (n - 1) ++ rest)) :
    Slot.ofName? r.stem name = some ⟨n, rest⟩ := by
  have down : n - 1 ≤ r.count := by omega
  have read := ofName?_opening limit down rest
  rcases rename?_cases h with ⟨spared, same⟩ | ⟨s, found, after', last', same⟩
  · rw [← same] at spared
    exact absurd spared (not_spares_opening limit down (by omega) rest)
  · rw [same, Slot.ofName?_name r.stem (by dsimp only; omega)] at read
    obtain ⟨index, rfl⟩ := Slot.mk.inj (Option.some.inj read)
    rw [found]
    have : s.index = n := by omega
    rw [← this]

end

section

variable {α : Type} {t : Table α}

theorem mem_names_shift {later : String} :
    later ∈ Table.names (r.shift t) ↔ ∃ name ∈ Table.names t, r.rename? name = some later := by
  rw [shift, Table.mem_names_ofPairs]
  simp only [Table.names, List.mem_map, List.mem_filterMap, Option.map_eq_some_iff]
  constructor
  · rintro ⟨_, ⟨e, he, name, renamed, rfl⟩, rfl⟩
    exact ⟨e.1, ⟨e, he, rfl⟩, renamed⟩
  · rintro ⟨_, ⟨e, he, rfl⟩, renamed⟩
    exact ⟨_, ⟨e, he, later, renamed, rfl⟩, rfl⟩

/-- What stands under a name after the removal stood under a name that is changed to it. -/
theorem exists_of_get?_shift (ascending : t.Ascending) {later : String} {v : α}
    (h : Table.get? later (r.shift t) = some v) :
    ∃ name, r.rename? name = some later ∧ Table.get? name t = some v := by
  rcases Table.mem_of_get?_override (t := []) h with there | absent
  · obtain ⟨e, he, moved⟩ := List.mem_filterMap.1 there
    obtain ⟨_, renamed, same⟩ := Option.map_eq_some_iff.1 moved
    obtain ⟨rfl, rfl⟩ := Prod.mk.inj same
    exact ⟨e.1, renamed, Table.get?_of_mem ascending.distinct he⟩
  · cases absent

/-- A name that is changed keeps what stands under it, if no greater name is changed to the same. -/
theorem get?_shift_of_greatest (ascending : t.Ascending) {name later : String} {v : α}
    (found : Table.get? name t = some v) (renamed : r.rename? name = some later)
    (greatest : ∀ other, r.rename? other = some later → ¬name < other) :
    Table.get? later (r.shift t) = some v := by
  obtain ⟨front, back, rfl, greater⟩ := Table.split_of_get? ascending found
  rw [shift, List.filterMap_append, List.filterMap_cons, renamed, Option.map_some]
  refine Table.get?_ofPairs_of_last fun again => ?_
  obtain ⟨⟨_, w⟩, hmem, rfl⟩ := List.mem_map.1 again
  obtain ⟨e, he, h⟩ := List.mem_filterMap.1 hmem
  obtain ⟨_, renamed', same⟩ := Option.map_eq_some_iff.1 h
  obtain ⟨rfl, rfl⟩ := Prod.mk.inj same
  exact greatest e.1 renamed' (greater e he)

/-- A name to which no other is changed keeps what stands under it, and nothing comes to stand under it. -/
theorem get?_shift_of_only (ascending : t.Ascending) {name : String} (kept : r.rename? name = some name)
    (only : ∀ other, r.rename? other = some name → other = name) :
    Table.get? name (r.shift t) = Table.get? name t := by
  cases found : Table.get? name t with
  | some v =>
    refine get?_shift_of_greatest ascending found kept fun other renamed => ?_
    rw [only other renamed]
    exact String.lt_irrefl name
  | none =>
    rw [Table.get?_eq_none_iff] at found ⊢
    intro again
    obtain ⟨other, there, renamed⟩ := mem_names_shift.1 again
    rw [only other renamed] at there
    exact found there

variable (limit : r.count < Slot.indexLimit) (ascending : t.Ascending)

include limit ascending

/-- A name that is spared keeps what stands under it, and nothing comes to stand under it. -/
theorem get?_shift_of_spares (range : r.index ≤ r.count) {name : String} (spared : r.Spares name) :
    Table.get? name (r.shift t) = Table.get? name t :=
  get?_shift_of_only ascending ((spares_iff_rename? range).1 spared) fun _ renamed =>
    eq_of_rename?_of_spares limit renamed spared

/-- What stands under a name written for a later instance comes one slot down. -/
theorem get?_shift_opening {n : Nat} (after : r.index < n) (last : n ≤ r.count) {rest : String}
    {v : α} (found : Table.get? (r.opening n ++ rest) t = some v) :
    Table.get? (r.opening (n - 1) ++ rest) (r.shift t) = some v := by
  refine get?_shift_of_greatest ascending found (rename?_opening limit last after rest) ?_
  intro other renamed
  rw [opening_append]
  have positive : n ≠ 0 := by omega
  exact Slot.not_lt_of_ofName? (ofName?_of_rename? limit after last renamed) positive

end

/-- What stands under a name that is not spared has no part in what stands under it afterwards. -/
theorem get?_shift_erase {α : Type} (range : r.index ≤ r.count) {name : String}
    (away : ¬r.Spares name) (t : Table α) :
    Table.get? name (r.shift (Table.erase name t)) = Table.get? name (r.shift t) := by
  let moved (e : String × α) := (r.rename? e.1).map fun later => (later, e.2)
  have alike : ∀ (t : Table α) (acc acc' : Table α), Table.get? name acc = Table.get? name acc' →
      Table.get? name (Table.override acc ((Table.erase name t).filterMap moved)) =
        Table.get? name (Table.override acc' (t.filterMap moved)) := by
    intro t
    induction t with
    | nil => exact fun _ _ h => h
    | cons e t ih =>
      intro acc acc' h
      obtain ⟨k, v⟩ := e
      by_cases same : k = name
      · have erased : Table.erase name ((k, v) :: t) = Table.erase name t := by
          simp [Table.erase, same]
        rw [erased, List.filterMap_cons]
        cases renamed : r.rename? k with
        | none =>
          simp only [moved, renamed, Option.map_none]
          exact ih acc acc' h
        | some later =>
          have other : name ≠ later := by
            rintro rfl
            rw [same] at renamed
            exact away ((spares_iff_rename? range).2 renamed)
          simp only [moved, renamed, Option.map_some]
          exact ih acc _ (h.trans (Table.get?_insert_of_ne other v acc').symm)
      · have kept : Table.erase name ((k, v) :: t) = (k, v) :: Table.erase name t := by
          simp [Table.erase, same]
        rw [kept, List.filterMap_cons, List.filterMap_cons]
        cases renamed : r.rename? k with
        | none =>
          simp only [moved, renamed, Option.map_none]
          exact ih acc acc' h
        | some later =>
          simp only [moved, renamed, Option.map_some]
          refine ih _ _ ?_
          by_cases hit : name = later
          · rw [hit, Table.get?_insert_self, Table.get?_insert_self]
          · rw [Table.get?_insert_of_ne hit, Table.get?_insert_of_ne hit, h]
  exact alike t [] [] rfl

/-- Nothing is left in the slot of the last instance. -/
theorem index_ne_count {α : Type} {t : Table α} (range : r.index ≤ r.count) {name : String}
    (h : name ∈ Table.names (r.shift t)) {s : Slot} (found : Slot.ofName? r.stem name = some s) :
    s.index ≠ r.count := by
  obtain ⟨before, -, renamed⟩ := mem_names_shift.1 h
  rcases rename?_cases renamed with ⟨spared, rfl⟩ | ⟨s', found', after, last, rfl⟩
  · have := spared s found
    omega
  · have small := Slot.index_lt_of_ofName? found'
    rw [Slot.ofName?_name r.stem (by dsimp only; omega)] at found
    obtain rfl := Option.some.inj found
    dsimp only
    omega

end Removal

theorem Table.erase_modify {α : Type} (key : String) (f : α → α) (t : Table α) :
    erase key (modify key f t) = erase key t := by
  induction t with
  | nil => rfl
  | cons e t ih =>
    obtain ⟨k, v⟩ := e
    by_cases same : k = key
    · simpa [erase, modify, same] using ih
    · simpa [erase, modify, same] using ih

/-- What it takes to remove an instance, and what comes of it. -/
theorem Registry.remove?_eq_some_iff {key : String} {index : Nat} {g g' : Registry} {r : Removal} :
    g.remove? key index = some (r, g') ↔ ∃ e n, g.entry? key = some e ∧ g.count? key = some n ∧
      e.bounds.min < n ∧ 1 ≤ index ∧ index ≤ n ∧ r = ⟨e.stem, index, n⟩ ∧
      g' = { g with counts := Table.modify key (· - 1) (r.shift g.counts) } := by
  unfold remove? canRemove known?
  cases entry : g.entry? key with
  | none => simp
  | some e =>
    cases count : g.count? key with
    | none => simp
    | some n =>
      constructor
      · intro removed
        dsimp only at removed
        split at removed
        · rename_i able
          obtain ⟨rfl, rfl⟩ := Prod.mk.inj (Option.some.inj removed)
          simp only [Bool.and_eq_true, decide_eq_true_eq] at able
          exact ⟨e, n, rfl, rfl, able.1.1, able.1.2, able.2, rfl, rfl⟩
        · cases removed
      · rintro ⟨_, _, known, known', dispensable, positive, range, rfl, rfl⟩
        obtain rfl := Option.some.inj known
        obtain rfl := Option.some.inj known'
        simp [dispensable, positive, range]

/-- Under a key that is not spared, the count of a group has no part in what is recorded afterwards. -/
theorem Registry.count?_remove?_of_modify {key other : String} {index : Nat} {g g' : Registry}
    {r : Removal} (removed : g.remove? key index = some (r, g')) (away : ¬r.Spares other)
    (apart : other ≠ key) (m : Nat) :
    ∃ g'', { g with counts := Table.modify other (fun _ => m) g.counts }.remove? key index =
        some (r, g'') ∧ g''.count? other = g'.count? other := by
  obtain ⟨e, n, entry, count, dispensable, positive, range, rfl, rfl⟩ :=
    remove?_eq_some_iff.1 removed
  have count' : Table.get? key (Table.modify other (fun _ => m) g.counts) = some n :=
    (Table.get?_modify_of_ne apart.symm _ _).trans count
  refine ⟨_, remove?_eq_some_iff.2
    ⟨e, n, entry, count', dispensable, positive, range, rfl, rfl⟩, ?_⟩
  rw [count?, count?, Table.get?_modify_of_ne apart, Table.get?_modify_of_ne apart,
    ← Removal.get?_shift_erase range away, Table.erase_modify, Removal.get?_shift_erase range away]

end Formwork
