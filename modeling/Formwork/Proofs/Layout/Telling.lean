import Formwork.Proofs.Layout.Records

/-!
# Counts that a document tells

Where no count is recorded, the highest index among the names of the document tells how many instances a
group has, and it has no fewer than its default. A form that is laid out from such a document, and from
counts recorded before, is the one that is there if they come to the count of each group in it. So laying out
a form again changes nothing.
-/
namespace Formwork

namespace Slot

/-- Some name lies in the instance of the group or in a later one. -/
def Reaches (stem : String) (names : List String) (n : Nat) : Prop :=
  ∃ name ∈ names, ∃ m, scanIndex? stem name = some m ∧ n ≤ m

theorem le_foldl_max_iff {n : Nat} (indices : List Nat) (first : Nat) :
    n ≤ indices.foldl max first ↔ n ≤ first ∨ ∃ m ∈ indices, n ≤ m := by
  induction indices generalizing first with
  | nil => simp
  | cons m indices ih =>
    have greatest : n ≤ max first m ↔ n ≤ first ∨ n ≤ m := by omega
    simp only [List.foldl_cons, ih, List.mem_cons, exists_eq_or_imp, greatest, or_assoc]

theorem reaches_iff {stem : String} {names : List String} {n : Nat} (positive : 0 < n) :
    Reaches stem names n ↔ n ≤ highestIndex stem names := by
  rw [highestIndex, le_foldl_max_iff]
  constructor
  · rintro ⟨name, mem, m, read, le⟩
    exact .inr ⟨m, List.mem_filterMap.2 ⟨name, mem, read⟩, le⟩
  · rintro (none | ⟨m, mem, le⟩)
    · omega
    · obtain ⟨name, mem, read⟩ := List.mem_filterMap.1 mem
      exact ⟨name, mem, m, read, le⟩

end Slot

/-- The default is one of the counts that are allowed. -/
structure RepeatBounds.InOrder (b : RepeatBounds) : Prop where
  least : b.min ≤ b.defaultCount
  greatest : b.defaultCount ≤ b.max

theorem RepeatBounds.inOrder_ofSpec (spec : RepeatSpec) (fallbackMax : Nat) :
    (ofSpec spec fallbackMax).InOrder := by
  have ordered := min_le_max_ofSpec spec fallbackMax
  have settled : (ofSpec spec fallbackMax).defaultCount =
      Min.min (Max.max (spec.defaultCount.getD (ofSpec spec fallbackMax).min)
        (ofSpec spec fallbackMax).min) (ofSpec spec fallbackMax).max := rfl
  constructor <;> omega

namespace RepeatEntry

/-- The count that a document tells, brought within the bounds. -/
def toldCount (e : RepeatEntry) (stored : Fields) : Nat :=
  e.bounds.clamp (Nat.max (Slot.highestIndex e.stem stored.names) e.bounds.defaultCount)

/-- There are as many instances as by default, or more of them and a name in the last one, and no name lies
beyond them unless there can be no more. -/
structure Spans (e : RepeatEntry) (names : List String) (n : Nat) : Prop where
  least : e.bounds.defaultCount ≤ n
  last : n = e.bounds.defaultCount ∨ Slot.Reaches e.stem names n
  beyond : Slot.Reaches e.stem names (n + 1) → n = e.bounds.max

/-- A document tells just the number of instances that its names span. -/
theorem toldCount_eq_iff {e : RepeatEntry} (ordered : e.bounds.InOrder) {stored : Fields} {n : Nat}
    (range : n ≤ e.bounds.max) : e.toldCount stored = n ↔ e.Spans stored.names n := by
  obtain ⟨least, greatest⟩ := ordered
  have told : e.toldCount stored =
      min (max (max (Slot.highestIndex e.stem stored.names) e.bounds.defaultCount) e.bounds.min)
        e.bounds.max := rfl
  have reaches : Slot.Reaches e.stem stored.names (n + 1) ↔ _ := Slot.reaches_iff (Nat.succ_pos n)
  rcases Nat.eq_zero_or_pos n with rfl | positive
  · constructor
    · intro none
      refine ⟨by omega, .inl (by omega), ?_⟩
      rw [reaches]
      omega
    · rintro ⟨least', -, beyond⟩
      rw [reaches] at beyond
      omega
  · have reaches' : Slot.Reaches e.stem stored.names n ↔ _ := Slot.reaches_iff positive
    constructor
    · intro same
      refine ⟨by omega, ?_, ?_⟩
      · rw [reaches']
        omega
      · rw [reaches]
        omega
    · rintro ⟨least', last, beyond⟩
      rw [reaches] at beyond
      rw [reaches'] at last
      omega

end RepeatEntry

theorem Registry.countFor_of_unrecorded {r : Registry} {e : RepeatEntry} {stored : Fields}
    (h : r.count? e.key = none) : r.countFor e stored = e.toldCount stored := by
  rw [countFor, h]
  rfl

/-! ## What holds at every step -/

/-- Placing a field, naming a group and settling a count keep what holds of the progress. -/
structure Layout.Keeps (layout : Layout) (P : Progress → Prop) : Prop where
  place : ∀ p scope f, P p → P (Progress.placeField scope p f).2
  name : ∀ p candidate, P p → P (p.nameGroup candidate).2
  settle : ∀ p kind scope s spec, P p → P (Blueprint.settled layout kind scope s spec p).2

theorem threaded_keeps {α β σ : Type} {step : σ → α → β × σ} {P : σ → Prop}
    (h : ∀ state item, P state → P (step state item).2) {state : σ} (start : P state) (l : List α) :
    P (threaded step state l).2 := by
  induction l generalizing state with
  | nil => exact start
  | cons item l ih => exact ih (h state item start)

section

variable {layout : Layout} {P : Progress → Prop}

namespace Blueprint

mutual

/-- What every step keeps holds after a section is laid out. -/
theorem layOut_keeps (keeps : layout.Keeps P) (kind : GroupKind) (scope : Scope) :
    ∀ (b : Blueprint) {p : Progress}, P p → P (layOut layout kind scope p b).2
  | ⟨s, fields, subsections⟩, p, h => by
    cases hs : s.repeats? with
    | none =>
      rw [layOut_of_plain layout kind scope p fields subsections hs]
      have placed := threaded_keeps (keeps.place · scope) (keeps.name p (candidate scope s) h) fields
      exact layOutList_keeps keeps scope subsections placed
    | some spec =>
      rw [layOut_of_settled layout kind scope p fields subsections hs]
      refine threaded_keeps (fun q index hq => ?_) (keeps.settle p kind scope s spec h) _
      exact layOutList_keeps keeps _ subsections (threaded_keeps (keeps.place · _) hq fields)

theorem layOutList_keeps (keeps : layout.Keeps P) (scope : Scope) :
    ∀ (l : List Blueprint) {p : Progress}, P p → P (layOutList layout scope p l).2
  | [], _, h => by
    rw [layOutList]
    exact h
  | b :: rest, _, h => by
    rw [layOutList_cons]
    exact layOutList_keeps keeps scope rest (layOut_keeps keeps .subsection scope b h)

end

end Blueprint

/-- What every step keeps holds when a form is laid out. -/
theorem FormTree.build_keeps (keeps : layout.Keeps P) {t : Template} {registry final : Registry}
    {tree : FormTree} (built : build layout t registry = (tree, final)) (h : P (outset registry)) :
    ∃ q, final = q.registry ∧ P q := by
  obtain ⟨-, rfl⟩ := Prod.mk.inj built
  exact ⟨_, rfl, threaded_keeps (fun _ b => Blueprint.layOut_keeps keeps .topSection [] b) h _⟩

end

namespace Progress

/-- Every group that is entered so far has been given its key, and `Q` holds of it and its count. -/
def Enters (Q : RepeatEntry → Nat → Prop) (p : Progress) : Prop :=
  ∀ key e, p.registry.entry? key = some e →
    key ∈ p.groupKeys ∧ e.key = key ∧ ∃ n, p.registry.count? key = some n ∧ Q e n

variable {Q : RepeatEntry → Nat → Prop} {p q : Progress}

theorem Enters.nameGroup (h : p.Enters Q) (candidate : String) : (p.nameGroup candidate).2.Enters Q := by
  intro key e entry
  obtain ⟨named, rest⟩ := h key e entry
  exact ⟨List.mem_cons_of_mem _ named, rest⟩

theorem Enters.settled (h : p.Enters Q) {layout : Layout} {kind : GroupKind} {scope : Scope}
    {s : Section} {spec : RepeatSpec}
    (new : Q (.ofSection (p.groupName (Blueprint.candidate scope s)) kind s spec layout.fallbackMax)
      (Blueprint.settled layout kind scope s spec p).1) :
    (Blueprint.settled layout kind scope s spec p).2.Enters Q := by
  let given := RepeatEntry.ofSection (p.groupName (Blueprint.candidate scope s)) kind s spec
    layout.fallbackMax
  have recorded := settle_self given layout.stored (p.nameGroup (Blueprint.candidate scope s)).2
  intro key e entry
  by_cases same : key = p.groupName (Blueprint.candidate scope s)
  · subst same
    obtain rfl := Option.some.inj (recorded.2.symm.trans entry)
    exact ⟨List.mem_cons_self, rfl, _, recorded.1, new⟩
  · have apart : key ≠ given.key := same
    obtain ⟨count', entry'⟩ := settle_of_ne apart layout.stored
      (p.nameGroup (Blueprint.candidate scope s)).2
    obtain ⟨named, key_eq, n, count, holds⟩ := h key e (entry'.symm.trans entry)
    exact ⟨List.mem_cons_of_mem _ named, key_eq, n, count'.trans count, holds⟩

end Progress

/-- The bounds of a group are in order, and its count is within them. -/
structure RepeatEntry.Holds (e : RepeatEntry) (n : Nat) : Prop where
  stem : e.stem = e.key ++ "_"
  ordered : e.bounds.InOrder
  least : e.bounds.min ≤ n
  greatest : n ≤ e.bounds.max

theorem Progress.enters_outset (Q : RepeatEntry → Nat → Prop) (registry : Registry) :
    (FormTree.outset registry).Enters Q := by
  intro key e entry
  cases entry

theorem keeps_holds (layout : Layout) : layout.Keeps (Progress.Enters RepeatEntry.Holds) where
  place := fun _ _ _ h => h
  name := fun _ candidate h => h.nameGroup candidate
  settle := fun _ _ _ _ spec h =>
    h.settled ⟨rfl, RepeatBounds.inOrder_ofSpec spec layout.fallbackMax,
      RepeatBounds.min_le_clamp (RepeatBounds.min_le_max_ofSpec spec layout.fallbackMax) _,
      RepeatBounds.clamp_le_max _ _⟩

/-- The groups that are entered when a form is laid out have counts within their bounds. -/
theorem FormTree.holds_of_build {layout : Layout} {t : Template} {registry final : Registry}
    {tree : FormTree} (built : build layout t registry = (tree, final)) {key : String} {e : RepeatEntry}
    (entry : final.entry? key = some e) : e.key = key ∧ ∃ n, final.count? key = some n ∧ e.Holds n := by
  obtain ⟨q, rfl, enters⟩ := build_keeps (keeps_holds layout) built
    (Progress.enters_outset RepeatEntry.Holds registry)
  exact (enters key e entry).2

theorem keeps_ascending (layout : Layout) : layout.Keeps fun p => p.registry.entries.Ascending where
  place := fun _ _ _ h => h
  name := fun _ _ h => h
  settle := fun _ _ _ _ _ h => Table.ascending_insert _ _ h

/-- The groups are entered in ascending order of their keys. -/
theorem FormTree.ascending_entries_of_build {layout : Layout} {t : Template} {registry final : Registry}
    {tree : FormTree} (built : build layout t registry = (tree, final)) : final.entries.Ascending := by
  obtain ⟨q, rfl, ascending⟩ := build_keeps (keeps_ascending layout) built Table.ascending_nil
  exact ascending

/-- The counts that are there now are those that the document and the counts recorded before tell. -/
structure Progress.Told (base : Registry) (stored : Fields) (p : Progress) : Prop where
  enters : p.Enters fun e n => n = base.countFor e stored
  untouched : p.Untouched base

theorem keeps_told (base : Registry) (layout : Layout) :
    layout.Keeps (Progress.Told base layout.stored) where
  place := fun _ _ _ h => ⟨h.enters, h.untouched⟩
  name := fun _ candidate h => ⟨h.enters.nameGroup candidate,
    fun key unnamed => h.untouched key fun named => unnamed (List.mem_cons_of_mem _ named)⟩
  settle := by
    intro p kind scope s spec h
    have same := h.untouched _ (p.groupName_not_mem (Blueprint.candidate scope s))
    exact ⟨h.enters.settled (Registry.countFor_congr same layout.stored),
      Blueprint.untouched_settled layout kind scope s spec h.untouched⟩

/-- The count of each group is told by the document and the count recorded before. -/
theorem FormTree.count?_of_build {layout : Layout} {t : Template} {base final : Registry} {tree : FormTree}
    (built : build layout t base = (tree, final)) {key : String} {e : RepeatEntry}
    (entry : final.entry? key = some e) : final.count? key = some (base.countFor e layout.stored) := by
  obtain ⟨q, rfl, told⟩ := build_keeps (keeps_told base layout) built
    ⟨Progress.enters_outset _ base, fun _ _ => rfl⟩
  obtain ⟨-, -, n, count, rfl⟩ := told.enters key e entry
  exact count

/-! ## Laying out with counts that come to the same -/

/-- The document of the second layout and the counts recorded before it tell the counts of the groups that
are known in the end. -/
structure Layout.Tells (layout' layout : Layout) (base final : Registry) : Prop where
  fallback : layout'.fallbackMax = layout.fallbackMax
  counts : ∀ key e, final.entry? key = some e →
    final.count? key = some (base.countFor e layout'.stored)

/-- How far a form is laid out, and how far it is where other counts were recorded before: names, groups and
their counts are the same. -/
structure Progress.Retold (base : Registry) (p q : Progress) : Prop where
  controlIds : q.controlIds = p.controlIds
  groupKeys : q.groupKeys = p.groupKeys
  entries : q.registry.entries = p.registry.entries
  counts : ∀ key e, p.registry.entry? key = some e → q.registry.count? key = p.registry.count? key
  untouched : q.Untouched base
  distinct : p.Distinct

namespace Progress.Retold

open Blueprint

variable {base final : Registry} {p q : Progress} {layout layout' : Layout} {scope : Scope}

theorem placeFields (h : p.Retold base q) (scope : Scope) (fields : List Field) :
    (threaded (placeField scope) q fields).1 = (threaded (placeField scope) p fields).1 ∧
      (threaded (placeField scope) p fields).2.Retold base (threaded (placeField scope) q fields).2 := by
  induction fields generalizing p q with
  | nil => exact ⟨rfl, h⟩
  | cons f fields ih =>
    have name : q.controlName (scope.identifier f.id) = p.controlName (scope.identifier f.id) := by
      rw [controlName, controlName, h.controlIds]
    have first : (placeField scope q f).1 = (placeField scope p f).1 := by
      rw [placeField_eq, placeField_eq, name]
    have placed : (placeField scope p f).2.Retold base (placeField scope q f).2 :=
      { h with
        controlIds := List.cons_eq_cons.2 ⟨name, h.controlIds⟩
        distinct := h.distinct.nameControl _ }
    obtain ⟨others, retold⟩ := ih placed
    rw [threaded_cons, threaded_cons, first, others]
    exact ⟨rfl, retold⟩

theorem groupName (h : p.Retold base q) (candidate : String) :
    q.groupName candidate = p.groupName candidate := by
  rw [Progress.groupName, Progress.groupName, h.groupKeys]

theorem nameGroup (h : p.Retold base q) (candidate : String) :
    (p.nameGroup candidate).2.Retold base (q.nameGroup candidate).2 where
  controlIds := h.controlIds
  groupKeys := List.cons_eq_cons.2 ⟨h.groupName candidate, h.groupKeys⟩
  entries := h.entries
  counts := h.counts
  untouched := fun key unnamed => h.untouched key fun named => unnamed (List.mem_cons_of_mem _ named)
  distinct := h.distinct.nameGroup candidate

variable (tells : layout'.Tells layout base final)

include tells

/-- The count that was settled is the one that the document tells. -/
theorem settled (h : p.Retold base q) (kind : GroupKind) (scope : Scope) (s : Section) (spec : RepeatSpec)
    (lasts : (Blueprint.settled layout kind scope s spec p).2.Lasts final) :
    (Blueprint.settled layout' kind scope s spec q).1 = (Blueprint.settled layout kind scope s spec p).1 ∧
      (Blueprint.settled layout kind scope s spec p).2.Retold base
        (Blueprint.settled layout' kind scope s spec q).2 := by
  let entry := RepeatEntry.ofSection (p.groupName (candidate scope s)) kind s spec layout.fallbackMax
  let n := (Blueprint.settled layout kind scope s spec p).1
  have key := h.groupName (candidate scope s)
  have unused := q.groupName_not_mem (candidate scope s)
  rw [key] at unused
  have same : q.registry.count? entry.key = base.count? entry.key := h.untouched entry.key unused
  obtain ⟨recorded, known⟩ := count?_of_lasts layout kind scope s spec lasts
  have told : q.registry.countFor entry layout'.stored = n :=
    (Registry.countFor_congr same layout'.stored).trans
      (Option.some.inj ((tells.counts _ entry known).symm.trans recorded))
  have again : Blueprint.settled layout' kind scope s spec q =
      (n, { (q.nameGroup (candidate scope s)).2 with
        registry := (q.registry.recordCount entry.key n).register entry }) := by
    rw [Blueprint.settled, nameGroup_eq, key, tells.fallback, ← told]
    rfl
  rw [again]
  have named := h.nameGroup (candidate scope s)
  refine ⟨rfl, { named with entries := ?_, counts := ?_, untouched := ?_, distinct := ?_ }⟩
  · exact congrArg (Table.insert entry.key entry) h.entries
  · intro other e known
    by_cases same : other = entry.key
    · subst same
      exact (Table.get?_insert_self entry.key n q.registry.counts).trans
        (settle_self entry layout.stored (p.nameGroup (candidate scope s)).2).1.symm
    · obtain ⟨count, entry'⟩ := settle_of_ne same layout.stored (p.nameGroup (candidate scope s)).2
      exact (Table.get?_insert_of_ne same ..).trans
        ((h.counts other e (entry'.symm.trans known)).trans count.symm)
  · have after := untouched_settled layout' kind scope s spec h.untouched
    rwa [again] at after
  · exact distinct_settled layout kind scope s spec h.distinct

end Progress.Retold

namespace Blueprint

open Progress

variable {base final : Registry} {p q : Progress} {layout layout' : Layout}

def Repeats (layout layout' : Layout) (base final : Registry) (scope : Scope)
    (subsections : List Blueprint) : Prop :=
  ∀ {p q : Progress}, p.Retold base q → (layOutList layout scope p subsections).2.Lasts final →
    (layOutList layout' scope q subsections).1 = (layOutList layout scope p subsections).1 ∧
      (layOutList layout scope p subsections).2.Retold base (layOutList layout' scope q subsections).2

variable {scope : Scope} {subsections : List Blueprint}

theorem layOutBody_retold (below : Repeats layout layout' base final scope subsections) (h : p.Retold base q)
    (fields : List Field) (lasts : (layOutBody layout scope fields subsections p).2.Lasts final) :
    let body := layOutBody layout scope fields subsections p
    let body' := layOutBody layout' scope fields subsections q
    body'.1 = body.1 ∧ body.2.Retold base body'.2 := by
  obtain ⟨own, placed⟩ := h.placeFields scope fields
  obtain ⟨groups, retold⟩ := below placed lasts
  exact ⟨Prod.ext own groups, retold⟩

theorem layOutInstances_retold {key : String} (caption : String) (fields : List Field)
    (below : ∀ index, Repeats layout layout' base final (instanceScope scope key index) subsections)
    (h : p.Retold base q) (indices : List Nat)
    (lasts : (threaded (layOutInstance layout scope key caption fields subsections) p indices).2.Lasts
      final) :
    let laid := threaded (layOutInstance layout scope key caption fields subsections) p indices
    let laid' := threaded (layOutInstance layout' scope key caption fields subsections) q indices
    laid'.1 = laid.1 ∧ laid.2.Retold base laid'.2 := by
  induction indices generalizing p q with
  | nil => exact ⟨rfl, h⟩
  | cons index indices ih =>
    have body := layOutBody_grown layout (instanceScope scope key index) fields subsections h.distinct
    have others := layOutInstances_grown layout scope key caption fields subsections body.distinct indices
    obtain ⟨same, retold⟩ := layOutBody_retold (below index) h fields (lasts.before others)
    obtain ⟨same', retold'⟩ := ih retold lasts
    have first : (layOutInstance layout' scope key caption fields subsections q index).1 =
        (layOutInstance layout scope key caption fields subsections p index).1 := by
      simp only [layOutInstance, same]
    exact ⟨List.cons_eq_cons.2 ⟨first, same'⟩, retold'⟩

mutual

/-- A section is laid out in the same way. -/
theorem layOut_retold (tells : layout'.Tells layout base final) (kind : GroupKind) (scope : Scope) :
    ∀ (b : Blueprint) {p q : Progress}, p.Retold base q → (layOut layout kind scope p b).2.Lasts final →
      (layOut layout' kind scope q b).1 = (layOut layout kind scope p b).1 ∧
        (layOut layout kind scope p b).2.Retold base (layOut layout' kind scope q b).2
  | ⟨s, fields, subsections⟩, p, q, h, lasts => by
    have key := h.groupName (candidate scope s)
    cases hs : s.repeats? with
    | none =>
      rw [layOut_of_plain layout kind scope p fields subsections hs] at lasts ⊢
      rw [layOut_of_plain layout' kind scope q fields subsections hs]
      obtain ⟨same, retold⟩ := layOutBody_retold (layOutList_retold tells scope subsections)
        (h.nameGroup (candidate scope s)) fields lasts
      refine ⟨?_, retold⟩
      dsimp only
      rw [same, nameGroup_eq, nameGroup_eq, key]
    | some spec =>
      rw [layOut_of_settled layout kind scope p fields subsections hs] at lasts ⊢
      rw [layOut_of_settled layout' kind scope q fields subsections hs]
      have grown := layOutInstances_grown layout scope (p.groupName (candidate scope s))
        (s.instanceLabel spec) fields subsections (distinct_settled layout kind scope s spec h.distinct)
        (List.range' 1 (settled layout kind scope s spec p).1)
      obtain ⟨count, settled⟩ := h.settled tells kind scope s spec (lasts.before grown)
      obtain ⟨same, retold⟩ := layOutInstances_retold (s.instanceLabel spec) fields
        (fun index => layOutList_retold tells (instanceScope scope _ index) subsections) settled _ lasts
      rw [count, key]
      refine ⟨?_, retold⟩
      dsimp only
      rw [same]

theorem layOutList_retold (tells : layout'.Tells layout base final) (scope : Scope) :
    ∀ l : List Blueprint, Repeats layout layout' base final scope l
  | [], p, q, h, lasts => by
    rw [layOutList, layOutList]
    exact ⟨rfl, h⟩
  | b :: rest, p, q, h, lasts => by
    rw [layOutList_cons] at lasts
    have others := layOutList_grown layout scope rest
      (layOut_grown layout .subsection scope b h.distinct).distinct
    obtain ⟨first, retold⟩ := layOut_retold tells .subsection scope b h (lasts.before others)
    obtain ⟨same, retold'⟩ := layOutList_retold tells scope rest retold lasts
    rw [layOutList_cons, layOutList_cons, first, same]
    exact ⟨rfl, retold'⟩

end

theorem layOutSections_retold (tells : layout'.Tells layout base final) (h : p.Retold base q) (l : List Blueprint)
    (lasts : (threaded (layOut layout .topSection []) p l).2.Lasts final) :
    (threaded (layOut layout' .topSection []) q l).1 = (threaded (layOut layout .topSection []) p l).1 ∧
      (threaded (layOut layout .topSection []) p l).2.Retold base
        (threaded (layOut layout' .topSection []) q l).2 := by
  induction l generalizing p q with
  | nil => exact ⟨rfl, h⟩
  | cons b l ih =>
    have others := layOutSections_grown layout (layOut_grown layout .topSection [] b h.distinct).distinct l
    obtain ⟨first, retold⟩ := layOut_retold tells .topSection [] b h (lasts.before others)
    obtain ⟨same, retold'⟩ := ih retold lasts
    exact ⟨List.cons_eq_cons.2 ⟨first, same⟩, retold'⟩

end Blueprint

/-- A form is laid out in the same way from any document and counts that tell its counts. -/
theorem FormTree.build_retold {layout layout' : Layout} {t : Template} {registry base final : Registry}
    {tree : FormTree} (built : build layout t registry = (tree, final))
    (step : layout'.step = layout.step) (tells : layout'.Tells layout base final) :
    ∃ again, build layout' t base = (tree, again) ∧ again.entries = final.entries ∧
      ∀ key e, final.entry? key = some e → again.count? key = final.count? key := by
  have start : (outset registry).Retold base (outset base) :=
    ⟨rfl, rfl, rfl, fun _ _ entry => (nomatch entry), fun _ _ => rfl, ⟨List.nodup_nil, List.nodup_nil⟩⟩
  obtain ⟨rfl, rfl⟩ := Prod.mk.inj built
  obtain ⟨same, retold⟩ := Blueprint.layOutSections_retold tells start (t.blueprints layout.step)
    fun _ _ => ⟨rfl, rfl⟩
  rw [build, step]
  exact ⟨_, Prod.ext (congrArg FormTree.mk same) rfl, retold.entries, retold.counts⟩

/-- No count is changed under a key that is entered for no group. -/
theorem FormTree.count?_of_not_entered {layout : Layout} {t : Template} {base final : Registry}
    {tree : FormTree} (built : build layout t base = (tree, final)) {key : String}
    (none : final.entry? key = none) : final.count? key = base.count? key := by
  obtain ⟨q, known, grown⟩ := build_grown layout t base
  rw [built] at known grown
  refine (congrArg (Registry.count? key) known).trans (grown.kept key fun g hg repeats => ?_).1
  obtain ⟨-, -, e, entry, -⟩ := grown.counted g hg key repeats
  rw [← known, none] at entry
  cases entry

/-- Laying out a form again changes nothing. -/
theorem FormTree.build_again {layout layout' : Layout} {t : Template} {registry final : Registry}
    {tree : FormTree} (built : build layout t registry = (tree, final)) (ascending : final.counts.Ascending)
    (step : layout'.step = layout.step) (fallback : layout'.fallbackMax = layout.fallbackMax) :
    build layout' t final = (tree, final) := by
  have tells : layout'.Tells layout final final := by
    refine ⟨fallback, fun key e entry => ?_⟩
    obtain ⟨rfl, n, count, holds⟩ := holds_of_build built entry
    have within : e.bounds.clamp n = n := by
      have clamped : e.bounds.clamp n = min (max n e.bounds.min) e.bounds.max := rfl
      have := holds.least
      have := holds.greatest
      omega
    rw [Registry.countFor, count, within]
  obtain ⟨again, built', entries, counts⟩ := build_retold built step tells
  have ascending' : again.counts.Ascending := by
    obtain ⟨q, known, grown⟩ := build_grown layout' t final
    obtain rfl : again = q.registry := (congrArg Prod.snd built').symm.trans known
    exact grown.sorted ascending
  have same : again.counts = final.counts := by
    refine Table.ext ascending' ascending fun key => ?_
    cases entry : again.entry? key with
    | none => exact count?_of_not_entered built' entry
    | some e =>
      rw [Registry.entry?, entries] at entry
      exact counts key e entry
  obtain ⟨entries', counts'⟩ := again
  obtain rfl : entries' = final.entries := entries
  obtain rfl : counts' = final.counts := same
  exact built'

end Formwork
