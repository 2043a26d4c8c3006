import Formwork.Proofs.Removal.Contracting

/-!
# The instances that remain

The instances of the group itself. Those before the one that is removed are laid out alike. When the
later ones are laid out, no name is given in their slots yet, neither in the earlier form nor, one
number lower, in the later one, so nothing in them clashes with what is outside.
-/
namespace Formwork

open Progress Blueprint

namespace Removal

variable {r : Removal} {key opening : String} {outset : Registry} {p q p' : Progress}
  {fields : List PlacedField} {groups : List Group} {layout layout' : Layout} {final : Registry}

structure Vacant (r : Removal) (n : Nat) (p : Progress) : Prop where
  controls : ∀ rest, r.opening n ++ rest ∉ p.controlIds
  groups : ∀ rest, r.opening n ++ rest ∉ p.groupKeys

section

variable (limit : r.count < Slot.indexLimit) {n m : Nat} (last : n ≤ r.count)
include limit last

theorem Tidy.vacant (h : r.Tidy p) (after : r.index ≤ n) : r.Vacant n p :=
  ⟨fun rest there => not_spares_opening limit last after rest (h.controls _ there),
    fun rest there => not_spares_opening limit last after rest (h.groups _ there)⟩

theorem opening_ne (last' : m ≤ r.count) (ne : n ≠ m) (rest rest' : String) :
    r.opening n ++ rest ≠ r.opening m ++ rest' := by
  intro same
  have read := ofName?_opening limit last rest
  rw [same, ofName?_opening limit last' rest'] at read
  obtain ⟨index, -⟩ := Slot.mk.inj (Option.some.inj read)
  exact ne index.symm

theorem Vacant.after (h : r.Vacant n p) (last' : m ≤ r.count) (ne : n ≠ m)
    (grown : Grown (r.opening m) p q fields groups) : r.Vacant n q := by
  constructor
  · intro rest there
    rw [grown.controlIds, List.mem_append, List.mem_reverse] at there
    obtain ⟨f, hf, same⟩ := List.mem_map.1 (there.resolve_right (h.controls rest))
    obtain ⟨rest', begins⟩ := grown.openFields f hf
    exact opening_ne limit last last' ne rest rest' (same.symm.trans begins)
  · intro rest there
    rw [grown.groupKeys, List.mem_append, List.mem_reverse] at there
    obtain ⟨g, hg, same⟩ := List.mem_map.1 (there.resolve_right (h.groups rest))
    obtain ⟨rest', begins⟩ := grown.openGroups g hg
    exact opening_ne limit last last' ne rest rest' (same.symm.trans begins)

end

theorem Tidy.after (h : r.Tidy p) (grown : Grown opening p q fields groups)
    (controls : ∀ f ∈ fields, r.Spares f.controlId) (keys : ∀ g ∈ groups, r.Spares g.key) :
    r.Tidy q := by
  constructor
  · intro name there
    rw [grown.controlIds, List.mem_append, List.mem_reverse] at there
    rcases there with new | there
    · obtain ⟨f, hf, rfl⟩ := List.mem_map.1 new
      exact controls f hf
    · exact h.controls name there
  · intro name there
    rw [grown.groupKeys, List.mem_append, List.mem_reverse] at there
    rcases there with new | there
    · obtain ⟨g, hg, rfl⟩ := List.mem_map.1 new
      exact keys g hg
    · exact h.groups name there

section

variable (contracts : r.Contracts key layout layout' final outset) {scope : Scope} (caption : String)
  (own : List Field) {subsections : List Blueprint}
include contracts

theorem Contracts.moves {n : Nat} (after : r.index < n) (last : n ≤ r.count) :
    r.Moves n layout layout' final outset :=
  ⟨contracts.limit, after, last, contracts.fallback, contracts.moved n after last⟩

/-- Instances that stay where they are have spared names. -/
theorem spares_of_earlier (layout : Layout) (h : p.Distinct) (indices : List Nat)
    (before : ∀ n ∈ indices, n < r.index) :
    let laid := threaded (layOutInstance layout scope key caption own subsections) p indices
    (∀ f ∈ GroupInstance.listFields laid.1, r.Spares f.controlId) ∧
      ∀ g ∈ GroupInstance.listGroups laid.1, r.Spares g.key := by
  induction indices generalizing p with
  | nil => exact ⟨fun _ hf => absurd hf List.not_mem_nil, fun _ hg => absurd hg List.not_mem_nil⟩
  | cons n indices ih =>
    intro laid
    have grown := layOutBody_grown layout (instanceScope scope key n) own subsections h
    obtain ⟨others, others'⟩ := ih grown.distinct fun m hm => before m (List.mem_cons_of_mem _ hm)
    have first := before n List.mem_cons_self
    have stays : ∀ rest, r.Spares (r.opening n ++ rest) :=
      spares_opening contracts.limit (first.le.trans contracts.range) first
    constructor
    · intro f hf
      rcases List.mem_append.1 hf with hf | hf
      · obtain ⟨rest, begins⟩ := grown.openFields f hf
        rw [begins, opening_instance contracts.stem]
        exact stays rest
      · exact others f hf
    · intro g hg
      rcases List.mem_append.1 hg with hg | hg
      · obtain ⟨rest, begins⟩ := grown.openGroups g hg
        rw [begins, opening_instance contracts.stem]
        exact stays rest
      · exact others' g hg

/-- No other instance has a spared name. -/
theorem aside_of_later (layout : Layout) (h : p.Distinct) (indices : List Nat)
    (range : ∀ n ∈ indices, r.index ≤ n ∧ n ≤ r.count) :
    r.Aside p (threaded (layOutInstance layout scope key caption own subsections) p indices).2 := by
  induction indices generalizing p with
  | nil => exact .refl r p
  | cons n indices ih =>
    have grown := layOutBody_grown layout (instanceScope scope key n) own subsections h
    obtain ⟨after, last⟩ := range n List.mem_cons_self
    have away : ¬r.Spares (instanceScope scope key n).opening := by
      rw [opening_instance contracts.stem, ← String.append_empty (s := r.opening n)]
      exact not_spares_opening contracts.limit last after ""
    exact (Aside.of_grown grown away).trans
      (ih grown.distinct fun m hm => range m (List.mem_cons_of_mem _ hm))

/-- A later instance is laid out one number lower, and its controls are carried over. -/
theorem layOutLater (around : scope.map r.renamedFrame = scope) {n : Nat} (after : r.index < n)
    (last : n ≤ r.count) (distinct : p.Distinct) (distinct' : q.Distinct)
    (untouched : q.Untouched outset) (vacant : r.Vacant n p) (vacant' : r.Vacant (n - 1) q)
    (lasts : (layOutInstance layout scope key caption own subsections p n).2.Lasts final) :
    let laid := layOutInstance layout scope key caption own subsections p n
    let laid' := layOutInstance layout' scope key caption own subsections q (n - 1)
    laid'.1 = r.movedInstance laid.1 ∧ (r.Carried p q → r.Carried laid.2 laid'.2) := by
  have beside : r.Beside n outset p q :=
    ⟨fun rest => iff_of_false (vacant.controls rest) (vacant'.controls rest),
      fun rest => iff_of_false (vacant.groups rest) (vacant'.groups rest), distinct, distinct', untouched⟩
  obtain ⟨same, beside⟩ := layOutInstance_beside (contracts.moves after last) contracts.stem around
    caption own subsections beside lasts
  have grown := layOutBody_grown layout (instanceScope scope key n) own subsections distinct
  have grown' := layOutBody_grown layout' (instanceScope scope key (n - 1)) own subsections distinct'
  refine ⟨same, fun carried => (carried.mono grown'.controlIds_subset).after grown fun f hf => ?_⟩
  obtain ⟨rest, begins⟩ := grown.openFields f hf
  rw [opening_instance contracts.stem] at begins
  have there :
      f.controlId ∈ (layOutInstance layout scope key caption own subsections p n).2.controlIds :=
    grown.controlIds ▸ List.mem_append_left _ (List.mem_reverse.2 (List.mem_map_of_mem hf))
  rw [begins] at there ⊢
  exact .moves after last ((beside.controls rest).1 there)

/-- The later instances are laid out one number lower. -/
theorem layOutInstances_later (around : scope.map r.renamedFrame = scope) (m n : Nat)
    (after : r.index ≤ n) (last : n + m = r.count) (distinct : p.Distinct) (distinct' : q.Distinct)
    (untouched : q.Untouched outset) (vacant : ∀ j, n < j → j ≤ r.count → r.Vacant j p)
    (vacant' : ∀ j, n ≤ j → j ≤ r.count → r.Vacant j q) :
    let laid := threaded (layOutInstance layout scope key caption own subsections) p
      (List.range' (n + 1) m)
    let laid' := threaded (layOutInstance layout' scope key caption own subsections) q (List.range' n m)
    laid.2.Lasts final →
      laid'.1 = laid.1.map r.movedInstance ∧ (r.Carried p q → r.Carried laid.2 laid'.2) := by
  induction m generalizing n p q with
  | zero => exact fun _ => ⟨rfl, id⟩
  | succ m ih =>
    intro laid laid' lasts
    have grown := layOutBody_grown layout (instanceScope scope key (n + 1)) own subsections distinct
    have grown' := layOutBody_grown layout' (instanceScope scope key n) own subsections distinct'
    have others := layOutInstances_grown layout scope key caption own subsections grown.distinct
      (List.range' (n + 1 + 1) m)
    obtain ⟨first, carried⟩ := layOutLater contracts caption own around (Nat.lt_succ_of_le after)
      (by omega) distinct distinct' untouched (vacant (n + 1) (Nat.lt_succ_self n) (by omega))
      (vacant' n (Nat.le_refl n) (by omega)) (lasts.before others)
    have later := untouched.after grown'
    rw [opening_instance contracts.stem] at grown grown'
    obtain ⟨rest, carried'⟩ := ih (n + 1) (by omega) (by omega) grown.distinct grown'.distinct later
      (fun j hj hj' =>
        (vacant j (by omega) hj').after contracts.limit hj' (by omega) (by omega) grown)
      (fun j hj hj' =>
        (vacant' j (by omega) hj').after contracts.limit hj' (by omega) (by omega) grown')
      lasts
    exact ⟨List.cons_eq_cons.2 ⟨first, rest⟩, fun before => carried' (carried before)⟩

/-- The instances before the one that is removed are laid out alike. -/
theorem layOutInstances_earlier
    (below : ∀ index, r.BelowContracted key layout layout' final outset
      (instanceScope scope key index) subsections)
    (h : r.Alongside key outset p q) (named : key ∈ p.groupKeys) (indices : List Nat)
    (before : ∀ n ∈ indices, n < r.index) :
    let laid := threaded (layOutInstance layout scope key caption own subsections) p indices
    let laid' := threaded (layOutInstance layout' scope key caption own subsections) q indices
    laid.2.Lasts final →
      r.Alongside key outset laid.2 laid'.2 ∧
        (r.Tidy p → r.Tidy q → r.Carried p q →
          laid'.1 = laid.1 ∧ r.Tidy laid.2 ∧ r.Tidy laid'.2 ∧ r.Carried laid.2 laid'.2) := by
  intro laid laid' lasts
  have early := layOutInstances_contracted key caption own below h indices lasts
  refine ⟨early.alongside, fun tidy tidy' carried => ?_⟩
  have grown := layOutInstances_grown layout scope key caption own subsections h.distinct indices
  have grown' := layOutInstances_grown layout' scope key caption own subsections h.distinct' indices
  obtain ⟨fields, groups⟩ := spares_of_earlier contracts caption own layout h.distinct indices before
  obtain ⟨fields', groups'⟩ := spares_of_earlier contracts caption own layout' h.distinct' indices before
  obtain ⟨same, clean⟩ := early.exact
    (fun f hf => fields f (GroupInstance.listFieldsOutside_subset key _ hf))
    (fun g hg => groups g (GroupInstance.listGroupsOutside_subset key _ hg))
    ⟨fun absent => absurd named absent, carried⟩
  have unchanged := GroupInstance.listWithout_eq_self key r _ (grown.repeatKey_ne named)
  exact ⟨same.trans unchanged, tidy.after grown fields groups, tidy'.after grown' fields' groups',
    clean.carried⟩

/-- The instance that is removed is laid out in the earlier form only, the later ones in both. -/
theorem layOutInstances_removed (around : scope.map r.renamedFrame = scope)
    (h : r.Alongside key outset p q) :
    let laid := threaded (layOutInstance layout scope key caption own subsections) p
      (r.index :: List.range' (r.index + 1) (r.count - r.index))
    let laid' := threaded (layOutInstance layout' scope key caption own subsections) q
      (List.range' r.index (r.count - r.index))
    laid.2.Lasts final →
      r.Alongside key outset laid.2 laid'.2 ∧
        (r.Tidy p → r.Tidy q → r.Carried p q →
          laid'.1 = laid.1.tail.map r.movedInstance ∧ r.Carried laid.2 laid'.2) := by
  intro laid laid' lasts
  have range := contracts.range
  have removed := layOutBody_grown layout (instanceScope scope key r.index) own subsections h.distinct
  have moved := layOutInstances_grown layout scope key caption own subsections removed.distinct
    (List.range' (r.index + 1) (r.count - r.index))
  have moved' := layOutInstances_grown layout' scope key caption own subsections h.distinct'
    (List.range' r.index (r.count - r.index))
  constructor
  · have later : ∀ n ∈ r.index :: List.range' (r.index + 1) (r.count - r.index),
        r.index ≤ n ∧ n ≤ r.count := by
      intro n hn
      rw [← List.range'_succ] at hn
      have := List.mem_range'_1.1 hn
      omega
    have later' : ∀ n ∈ List.range' r.index (r.count - r.index), r.index ≤ n ∧ n ≤ r.count := by
      intro n hn
      have := List.mem_range'_1.1 hn
      omega
    exact h.aside (aside_of_later contracts caption own layout h.distinct _ later)
      (aside_of_later contracts caption own layout' h.distinct' _ later') moved.distinct moved'.distinct
      (h.untouched.after moved')
  · intro tidy tidy' carried
    rw [opening_instance contracts.stem] at removed
    have gone := carried.after removed fun f hf => by
      obtain ⟨rest, begins⟩ := removed.openFields f hf
      exact begins ▸ .goes rest
    obtain ⟨renumbered, carried⟩ := layOutInstances_later contracts caption own around
      (r.count - r.index) r.index (Nat.le_refl _) (by omega) removed.distinct h.distinct' h.untouched
      (fun j hj hj' => (tidy.vacant contracts.limit hj' hj.le).after contracts.limit hj' range (by omega)
        removed)
      (fun j hj hj' => tidy'.vacant contracts.limit hj' hj) lasts
    exact ⟨renumbered, carried gone⟩

omit contracts in
/-- The numbers of the instances, with that of the one that is removed. -/
theorem range'_of_index (positive : 1 ≤ r.index) (range : r.index ≤ r.count) :
    List.range' 1 r.count =
        List.range' 1 (r.index - 1) ++ r.index :: List.range' (r.index + 1) (r.count - r.index) ∧
      List.range' 1 (r.count - 1) =
        List.range' 1 (r.index - 1) ++ List.range' r.index (r.count - r.index) := by
  have appended := fun n => List.range'_append_1 (s := 1) (m := r.index - 1) (n := n)
  have first : 1 + (r.index - 1) = r.index := by omega
  have all : r.index - 1 + (r.count - r.index + 1) = r.count := by omega
  have others : r.index - 1 + (r.count - r.index) = r.count - 1 := by omega
  rw [first] at appended
  constructor
  · rw [← List.range'_succ, appended, all]
  · rw [appended, others]

/-- The instances of the group are those of the earlier form without the one that is removed. -/
theorem layOutInstances_remaining (around : scope.map r.renamedFrame = scope)
    (below : ∀ index, r.BelowContracted key layout layout' final outset
      (instanceScope scope key index) subsections)
    (h : r.Alongside key outset p q) (named : key ∈ p.groupKeys) :
    let laid := threaded (layOutInstance layout scope key caption own subsections) p
      (List.range' 1 r.count)
    let laid' := threaded (layOutInstance layout' scope key caption own subsections) q
      (List.range' 1 (r.count - 1))
    laid.2.Lasts final →
      r.Alongside key outset laid.2 laid'.2 ∧
        (r.Tidy p → r.Tidy q → r.Carried p q →
          laid'.1 = r.remaining laid.1 ∧ r.Carried laid.2 laid'.2) := by
  have positive := contracts.positive
  obtain ⟨split, split'⟩ := range'_of_index positive contracts.range
  have before : ∀ n ∈ List.range' 1 (r.index - 1), n < r.index := by
    intro n hn
    have := List.mem_range'_1.1 hn
    omega
  dsimp only
  rw [split, split', threaded_append, threaded_append]
  intro lasts
  have grown := layOutInstances_grown layout scope key caption own subsections h.distinct
    (List.range' 1 (r.index - 1))
  have removed := layOutInstances_grown layout scope key caption own subsections grown.distinct
    (r.index :: List.range' (r.index + 1) (r.count - r.index))
  obtain ⟨along, early⟩ := layOutInstances_earlier contracts caption own below h named
    (List.range' 1 (r.index - 1)) before (lasts.before removed)
  obtain ⟨along', late⟩ := layOutInstances_removed contracts caption own around along lasts
  refine ⟨along', fun tidy tidy' carried => ?_⟩
  obtain ⟨same, tidy, tidy', carried⟩ := early tidy tidy' carried
  obtain ⟨renumbered, carried⟩ := late tidy tidy' carried
  refine ⟨?_, carried⟩
  dsimp only
  rw [same, renumbered, threaded_cons]
  refine (remaining_append r _ _ _ ?_).symm
  rw [length_threaded, List.length_range']
  omega

end

end Removal

end Formwork
