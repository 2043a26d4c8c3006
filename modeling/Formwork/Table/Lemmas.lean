import Formwork.Table

/-!
# Tables through look-up

A table whose names ascend is determined by the value of each name, so the effect of an operation is
known once it is known what `Table.get?` finds afterwards. The names keep ascending under every
operation that builds a table.
-/
namespace Formwork.Table

variable {α β : Type}

theorem mem_of_get? {key : String} {v : α} {t : Table α} (h : get? key t = some v) :
    (key, v) ∈ t := by
  induction t with
  | nil => cases h
  | cons e t ih =>
    obtain ⟨k, w⟩ := e
    by_cases heq : k = key
    · have : w = v := by simpa [get?, heq] using h
      simp [heq, this]
    · have tail : get? key t = some v := by simpa [get?, heq] using h
      exact List.mem_cons_of_mem _ (ih tail)

theorem get?_eq_none_iff {key : String} {t : Table α} : get? key t = none ↔ key ∉ names t := by
  induction t with
  | nil => simp [get?, names]
  | cons e t ih =>
    obtain ⟨k, w⟩ := e
    by_cases heq : k = key
    · simp [get?, names, heq]
    · have key_ne : ¬key = k := fun h => heq h.symm
      simpa [get?, names, heq, key_ne] using ih

theorem isSome_get?_iff {key : String} {t : Table α} : (get? key t).isSome = true ↔ key ∈ names t := by
  rw [← Decidable.not_iff_not, ← get?_eq_none_iff, Bool.not_eq_true, Option.isSome_eq_false_iff,
    Option.isNone_iff_eq_none]

theorem get?_cons_self (key : String) (v : α) (t : Table α) : get? key ((key, v) :: t) = some v := by
  simp [get?]

/-- A name below all others has no value. -/
theorem get?_eq_none_of_below {key : String} {t : Table α} (h : ∀ e ∈ t, key < e.1) :
    get? key t = none := by
  rw [get?_eq_none_iff]
  intro hm
  obtain ⟨e, he, hk⟩ := List.mem_map.1 hm
  exact String.lt_irrefl key (hk ▸ h e he)

theorem mem_insert {key : String} {v : α} {t : Table α} {e : String × α}
    (h : e ∈ insert key v t) : e = (key, v) ∨ e ∈ t := by
  induction t with
  | nil => exact .inl (by simpa [insert] using h)
  | cons head t ih =>
    obtain ⟨k, w⟩ := head
    by_cases hlt : key < k
    · simpa [insert, hlt] using h
    · by_cases heq : k = key
      · rcases List.mem_cons.1 (by simpa [insert, hlt, heq] using h) with h | h
        · exact .inl h
        · exact .inr (List.mem_cons_of_mem _ h)
      · rcases List.mem_cons.1 (by simpa [insert, hlt, heq] using h) with h | h
        · exact .inr (h ▸ List.mem_cons_self)
        · exact (ih h).imp_right (List.mem_cons_of_mem _)

theorem ascending_nil : Ascending ([] : Table α) := .nil

theorem ascending_cons {e : String × α} {t : Table α} :
    Ascending (e :: t) ↔ (∀ later ∈ t, e.1 < later.1) ∧ Ascending t :=
  List.pairwise_cons

theorem ascending_insert (key : String) (v : α) {t : Table α} (h : Ascending t) :
    Ascending (insert key v t) := by
  induction t with
  | nil => simp [insert, Ascending]
  | cons e t ih =>
    obtain ⟨k, w⟩ := e
    obtain ⟨first, rest⟩ := ascending_cons.1 h
    by_cases hlt : key < k
    · have all : ∀ e ∈ (k, w) :: t, key < e.1 := by
        intro e he
        rcases List.mem_cons.1 he with he | he
        · exact he ▸ hlt
        · exact String.lt_trans hlt (first e he)
      rw [insert, if_pos hlt]
      exact ascending_cons.2 ⟨all, h⟩
    · by_cases heq : k = key
      · subst heq
        rw [insert, if_neg hlt, if_pos rfl]
        exact ascending_cons.2 ⟨first, rest⟩
      · have above : k < key := by
          rcases String.le_total k key with h | h
          · exact Decidable.byContradiction fun hn => heq (String.le_antisymm h (String.not_lt.1 hn))
          · exact absurd (String.le_antisymm (String.not_lt.1 hlt) h) heq
        have all : ∀ e ∈ insert key v t, k < e.1 := by
          intro e he
          rcases mem_insert he with he | he
          · exact he ▸ above
          · exact first e he
        rw [insert, if_neg hlt, if_neg heq]
        exact ascending_cons.2 ⟨all, ih rest⟩

theorem ascending_erase (key : String) {t : Table α} (h : Ascending t) : Ascending (erase key t) :=
  h.filter _

theorem ascending_override {t newer : Table α} (h : Ascending t) : Ascending (override t newer) := by
  induction newer generalizing t with
  | nil => exact h
  | cons e newer ih => exact ih (ascending_insert e.1 e.2 h)

theorem ascending_ofPairs (pairs : List (String × α)) : Ascending (ofPairs pairs) := by
  have built : ofPairs pairs = override [] pairs := rfl
  exact built ▸ ascending_override ascending_nil

theorem ascending_mapValues (f : α → β) {t : Table α} (h : Ascending t) :
    Ascending (mapValues f t) := by
  simpa [Ascending, mapValues, List.pairwise_map] using h

theorem ascending_modify (key : String) (f : α → α) {t : Table α} (h : Ascending t) :
    Ascending (modify key f t) := by
  have same : ∀ e : String × α, (if e.1 = key then (e.1, f e.2) else e).1 = e.1 := by
    intro e
    split <;> rfl
  simpa [Ascending, modify, List.pairwise_map, same] using h

theorem Ascending.distinct {t : Table α} (h : Ascending t) : (names t).Nodup := by
  have apart : ∀ a b : String × α, a.1 < b.1 → a.1 ≠ b.1 :=
    fun a b less same => String.lt_irrefl b.1 (same ▸ less)
  rw [names, List.Nodup, List.pairwise_map]
  exact h.imp (apart _ _)

/-- In a table whose names ascend, the entries are just what look-up finds. -/
theorem get?_eq_some_iff {t : Table α} (h : Ascending t) {key : String} {v : α} :
    get? key t = some v ↔ (key, v) ∈ t := by
  constructor
  · exact mem_of_get?
  · intro he
    induction t with
    | nil => cases he
    | cons e t ih =>
      obtain ⟨k, w⟩ := e
      obtain ⟨first, rest⟩ := ascending_cons.1 h
      rcases List.mem_cons.1 he with he | he
      · obtain ⟨rfl, rfl⟩ := Prod.mk.inj he
        simp [get?]
      · have below : k < key := first _ he
        have heq : ¬k = key := fun h => String.lt_irrefl key (h ▸ below)
        simpa [get?, heq] using ih rest he

theorem get?_mapValues (f : α → β) (key : String) (t : Table α) :
    get? key (mapValues f t) = (get? key t).map f := by
  induction t with
  | nil => rfl
  | cons e t ih =>
    obtain ⟨k, w⟩ := e
    by_cases heq : k = key
    · simp [mapValues, get?, heq]
    · simpa [mapValues, get?, heq] using ih

theorem get?_modify_self (key : String) (f : α → α) (t : Table α) :
    get? key (modify key f t) = (get? key t).map f := by
  induction t with
  | nil => rfl
  | cons e t ih =>
    obtain ⟨k, w⟩ := e
    by_cases heq : k = key
    · simp [modify, get?, heq]
    · simpa [modify, get?, heq] using ih

theorem get?_modify_of_ne {key other : String} (h : other ≠ key) (f : α → α) (t : Table α) :
    get? other (modify key f t) = get? other t := by
  induction t with
  | nil => rfl
  | cons e t ih =>
    obtain ⟨k, w⟩ := e
    by_cases heq : k = key
    · subst heq
      simpa [modify, get?, h.symm] using ih
    · by_cases hk : k = other
      · simp [modify, get?, hk, h]
      · simpa [modify, get?, heq, hk] using ih

/-- What a table finds after another was written over it. -/
theorem get?_override {t newer : Table α} (h : Ascending newer) (key : String) :
    get? key (override t newer) = (get? key newer).or (get? key t) := by
  induction newer generalizing t with
  | nil => simp [override]
  | cons e newer ih =>
    obtain ⟨k, w⟩ := e
    obtain ⟨first, rest⟩ := ascending_cons.1 h
    have step : override t ((k, w) :: newer) = override (insert k w t) newer := rfl
    rw [step, ih rest]
    by_cases heq : k = key
    · subst heq
      simp [get?_eq_none_of_below first, get?]
    · simp [get?, heq, get?_insert_of_ne (fun h => heq h.symm)]

theorem mem_names_insert {key other : String} {v : α} {t : Table α} :
    other ∈ names (insert key v t) ↔ other = key ∨ other ∈ names t := by
  by_cases h : other = key
  · subst h
    have found : other ∈ names (insert other v t) := by
      refine Decidable.byContradiction fun absent => ?_
      rw [← get?_eq_none_iff, get?_insert_self] at absent
      cases absent
    simp [found]
  · have absent : other ∉ names (insert key v t) ↔ other ∉ names t := by
      rw [← get?_eq_none_iff, get?_insert_of_ne h, get?_eq_none_iff]
    simp [h, Decidable.not_iff_not.1 absent]

theorem mem_names_override {t newer : Table α} {key : String} :
    key ∈ names (override t newer) ↔ key ∈ names newer ∨ key ∈ names t := by
  induction newer generalizing t with
  | nil => simp [override, names]
  | cons e newer ih =>
    have step : override t (e :: newer) = override (insert e.1 e.2 t) newer := rfl
    rw [step, ih, mem_names_insert]
    simp only [names, List.map_cons, List.mem_cons]
    rw [or_left_comm, or_assoc]

theorem mem_names_ofPairs {pairs : Table α} {key : String} :
    key ∈ names (ofPairs pairs) ↔ key ∈ names pairs := by
  have built : ofPairs pairs = override [] pairs := rfl
  rw [built, mem_names_override]
  simp [names]

/-- In a list of pairs in which no name occurs twice, look-up finds every pair. -/
theorem get?_of_mem {t : Table α} (distinct : (names t).Nodup) {key : String} {v : α}
    (h : (key, v) ∈ t) : get? key t = some v := by
  induction t with
  | nil => cases h
  | cons e t ih =>
    obtain ⟨k, w⟩ := e
    obtain ⟨unused, distinct⟩ := List.nodup_cons.1 distinct
    rcases List.mem_cons.1 h with h | h
    · obtain ⟨rfl, rfl⟩ := Prod.mk.inj h
      exact get?_cons_self ..
    · have hne : ¬k = key := fun heq => unused (List.mem_map.2 ⟨_, h, heq.symm⟩)
      simpa [get?, hne] using ih distinct h

/-- Pairs in which no name occurs twice, written over a table. -/
theorem get?_override_of_nodup {t pairs : Table α} (distinct : (names pairs).Nodup) (key : String) :
    get? key (override t pairs) = (get? key pairs).or (get? key t) := by
  induction pairs generalizing t with
  | nil => simp [override]
  | cons e pairs ih =>
    obtain ⟨k, w⟩ := e
    obtain ⟨unused, distinct⟩ := List.nodup_cons.1 distinct
    have step : override t ((k, w) :: pairs) = override (insert k w t) pairs := rfl
    rw [step, ih distinct]
    by_cases heq : k = key
    · subst heq
      simp [get?_eq_none_iff.2 unused, get?]
    · simp [get?, heq, get?_insert_of_ne (fun h => heq h.symm)]

/-- A table made of pairs in which no name occurs twice finds what the pairs say. -/
theorem get?_ofPairs {pairs : Table α} (distinct : (names pairs).Nodup) (key : String) :
    get? key (ofPairs pairs) = get? key pairs := by
  have built : ofPairs pairs = override [] pairs := rfl
  rw [built, get?_override_of_nodup distinct, get?_nil, Option.or_none]

/-- The names of a table in order, from look-up. -/
theorem names_perm {t : Table α} (h : Ascending t) {l : List String} (distinct : l.Nodup)
    (same : ∀ key, (get? key t).isSome = true ↔ key ∈ l) : (names t).Perm l :=
  (List.perm_ext_iff_of_nodup h.distinct distinct).2 fun key => isSome_get?_iff.symm.trans (same key)

/-- A table made of pairs in which no name occurs twice has just their names. -/
theorem names_ofPairs_perm {pairs : Table α} (distinct : (names pairs).Nodup) :
    (names (ofPairs pairs)).Perm (names pairs) :=
  names_perm (ascending_ofPairs pairs) distinct fun _ => isSome_get?_iff.trans mem_names_ofPairs

/-- Two tables with ascending names and the same value for each name are the same. -/
theorem ext {t u : Table α} (ht : Ascending t) (hu : Ascending u)
    (h : ∀ key, get? key t = get? key u) : t = u := by
  induction t generalizing u with
  | nil =>
    cases u with
    | nil => rfl
    | cons e u => simpa [get?] using h e.1
  | cons e t ih =>
    obtain ⟨k, v⟩ := e
    cases u with
    | nil => simpa [get?] using h k
    | cons e' u =>
      obtain ⟨l, w⟩ := e'
      obtain ⟨below, restT⟩ := ascending_cons.1 ht
      obtain ⟨below', restU⟩ := ascending_cons.1 hu
      have names_eq : k = l := by
        refine Decidable.byContradiction fun hne => ?_
        have left : (k, v) ∈ u := by
          have found := mem_of_get? ((h k).symm.trans (get?_cons_self k v t))
          exact (List.mem_cons.1 found).resolve_left fun h => hne (Prod.mk.inj h).1
        have right : (l, w) ∈ t := by
          have found := mem_of_get? ((h l).trans (get?_cons_self l w u))
          exact (List.mem_cons.1 found).resolve_left fun h => hne (Prod.mk.inj h).1.symm
        exact String.lt_asymm (below _ right) (below' _ left)
      subst names_eq
      have values_eq : v = w := by simpa [get?] using h k
      subst values_eq
      have tails : ∀ key, get? key t = get? key u := by
        intro key
        by_cases heq : k = key
        · subst heq
          rw [get?_eq_none_of_below below, get?_eq_none_of_below below']
        · simpa [get?, heq] using h key
      rw [ih restT restU tails]

/-- The table with the value of a name changed to what it gives for the value found first. -/
def adjust (key : String) (f : α → α) (t : Table α) : Table α :=
  match get? key t with
  | some v => modify key (fun _ => f v) t
  | none => t

theorem get?_adjust_self (key : String) (f : α → α) (t : Table α) :
    get? key (adjust key f t) = (get? key t).map f := by
  unfold adjust
  cases h : get? key t with
  | none => simp [h]
  | some v => simp [get?_modify_self, h]

theorem get?_adjust_of_ne {key other : String} (h : other ≠ key) (f : α → α) (t : Table α) :
    get? other (adjust key f t) = get? other t := by
  unfold adjust
  split
  · exact get?_modify_of_ne h _ t
  · rfl

theorem modify_modify (key : String) (f g : α → α) (t : Table α) :
    modify key g (modify key f t) = modify key (g ∘ f) t := by
  simp only [modify, List.map_map]
  refine List.map_congr_left fun e _ => ?_
  by_cases h : e.1 = key <;> simp [h]

theorem modify_comm {key other : String} (h : other ≠ key) (f g : α → α) (t : Table α) :
    modify other g (modify key f t) = modify key f (modify other g t) := by
  simp only [modify, List.map_map]
  refine List.map_congr_left fun e _ => ?_
  by_cases hk : e.1 = key
  · have ho : ¬e.1 = other := fun ho => h (ho.symm.trans hk)
    simp [hk, h.symm]
  · by_cases ho : e.1 = other <;> simp [hk, ho, h]

theorem adjust_adjust (key : String) {f g : α → α} (h : ∀ v, g (f v) = g v) (t : Table α) :
    adjust key g (adjust key f t) = adjust key g t := by
  have found := get?_adjust_self key f t
  cases before : get? key t with
  | none =>
    have same : adjust key f t = t := by simp only [adjust, before]
    rw [same]
  | some v =>
    rw [before, Option.map_some] at found
    rw [adjust, found]
    simp only [adjust, before, modify_modify, h]
    rfl

theorem adjust_comm {key other : String} (h : other ≠ key) (f g : α → α) (t : Table α) :
    adjust other g (adjust key f t) = adjust key f (adjust other g t) := by
  have at_other := get?_adjust_of_ne h f t
  have at_key := get?_adjust_of_ne h.symm g t
  cases ho : get? other t with
  | none =>
    have same : adjust other g t = t := by simp only [adjust, ho]
    rw [same, adjust, at_other, ho]
  | some w =>
    cases hk : get? key t with
    | none =>
      have same : adjust key f t = t := by simp only [adjust, hk]
      rw [same, adjust, ho, adjust]
      simp only [get?_modify_of_ne h.symm, hk]
    | some v =>
      rw [adjust, at_other, ho]
      simp only [adjust, hk, ho, get?_modify_of_ne h.symm, modify_comm h]

end Formwork.Table
