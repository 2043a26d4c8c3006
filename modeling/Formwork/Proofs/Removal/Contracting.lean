import Formwork.Proofs.Removal.Alongside
import Formwork.Proofs.Removal.Moving

/-!
# Laying out a form with an instance less

The form is laid out before and after the removal, side by side. Outside of the group the two agree in
all names that are spared. If all names there are spared, then the later form is the earlier one without
the instance: up to the instance the two are the same, the instance itself is laid out in the earlier
form only, and every instance after it is laid out in the later form one number lower.
-/
namespace Formwork

open Progress Blueprint

/-- The stems of the frames are no longer than what names inside the scope begin with. -/
def Scope.Nested (scope : Scope) : Prop := ∀ f ∈ scope, f.stem.length ≤ scope.opening.length

theorem Scope.Nested.instanceScope {scope : Scope} (h : scope.Nested) {key : String}
    (begins : ∃ rest, key = scope.opening ++ rest) (index : Nat) :
    (Blueprint.instanceScope scope key index).Nested := by
  obtain ⟨rest, rfl⟩ := begins
  intro f hf
  rw [opening_instanceScope]
  simp only [String.length_append]
  rcases List.mem_append.1 hf with hf | hf
  · have := h f hf
    omega
  · obtain rfl := List.mem_singleton.1 hf
    simp only [String.length_append]
    omega

namespace Removal

variable {r : Removal}

theorem spares_of_length_lt {name : String} (h : name.length < r.stem.length) : r.Spares name := by
  intro s found
  rw [Slot.ofName?_of_length_le h.le] at found
  cases found

theorem Spares.renamed_eq {name : String} (h : r.Spares name) (range : r.index ≤ r.count) :
    r.renamed name = name := by
  rw [renamed, (spares_iff_rename? range).1 h, Option.getD_some]

/-- No frame around the group is changed. -/
theorem map_renamedFrame {scope : Scope} (h : scope.Nested) {key : String} (stem : r.stem = key ++ "_")
    (begins : ∃ rest, key = scope.opening ++ rest) (range : r.index ≤ r.count) :
    scope.map r.renamedFrame = scope := by
  obtain ⟨rest, rfl⟩ := begins
  have same : ∀ f ∈ scope, r.renamedFrame f = f := by
    intro f hf
    have short : f.stem.length < r.stem.length := by
      have bounded := h f hf
      rw [stem]
      simp only [String.length_append]
      have : "_".length = 1 := rfl
      omega
    have other : f.stem ≠ r.stem := fun same => Nat.lt_irrefl _ (same ▸ short)
    rw [renamedFrame, if_neg other, (spares_of_length_lt short).renamed_eq range]
  rw [List.map_congr_left same, List.map_id']

/-- A removal of an instance of the group registered under `key`: what is known when the earlier form is
laid out, and the counts from which the later one is laid out. -/
structure Contracts (r : Removal) (key : String) (layout layout' : Layout)
    (final outset : Registry) : Prop where
  limit : r.count < Slot.indexLimit
  stem : r.stem = key ++ "_"
  positive : 1 ≤ r.index
  range : r.index ≤ r.count
  fallback : layout'.fallbackMax = layout.fallbackMax
  count : final.count? key = some r.count
  dispensable : ∀ e, final.entry? key = some e → e.bounds.min < r.count
  lowered : outset.count? key = some (r.count - 1)
  same : ∀ other, r.Spares other → other ≠ key → outset.count? other = final.count? other
  moved : ∀ n, r.index < n → n ≤ r.count → ∀ rest c, final.count? (r.opening n ++ rest) = some c →
    outset.count? (r.opening (n - 1) ++ rest) = some c

/-- Counts are changed as the removal asks. -/
theorem contracts_shift {key : String} {index n : Nat} {g : Registry} (ascending : g.counts.Ascending)
    (count : g.count? key = some n) (limit : n < Slot.indexLimit) (positive : 1 ≤ index)
    (range : index ≤ n) (dispensable : ∀ e, g.entry? key = some e → e.bounds.min < n)
    {layout layout' : Layout} (fallback : layout'.fallbackMax = layout.fallbackMax) :
    let r : Removal := ⟨key ++ "_", index, n⟩
    r.Contracts key layout layout' g { g with counts := Table.modify key (· - 1) (r.shift g.counts) } := by
  intro r
  have longer : key.length < r.stem.length := by
    have : "_".length = 1 := rfl
    simp only [r, String.length_append]
    omega
  have spared : r.Spares key := spares_of_length_lt longer
  refine ⟨limit, rfl, positive, range, fallback, count, dispensable, ?_, ?_, ?_⟩
  · rw [Registry.count?, Table.get?_modify_self, get?_shift_of_spares limit ascending range spared]
    exact congrArg (Option.map (· - 1)) count
  · intro other spared' apart
    rw [Registry.count?, Table.get?_modify_of_ne apart]
    exact get?_shift_of_spares limit ascending range spared'
  · intro m after last rest c found
    have apart : r.opening (m - 1) ++ rest ≠ key := by
      intro same
      have lengths := congrArg String.length same
      simp only [Removal.opening, Frame.opening, String.length_append] at lengths
      omega
    rw [Registry.count?, Table.get?_modify_of_ne apart]
    exact get?_shift_opening limit ascending after last found

/-- All names given so far are spared. -/
structure Tidy (r : Removal) (p : Progress) : Prop where
  controls : ∀ name ∈ p.controlIds, r.Spares name
  groups : ∀ name ∈ p.groupKeys, r.Spares name

/-- What becomes of a name among the names given later. -/
inductive Fate (r : Removal) (given : List String) : String → Prop
  | stays {name : String} (spared : r.Spares name) (there : name ∈ given) : Fate r given name
  | goes (rest : String) : Fate r given (r.opening r.index ++ rest)
  | moves {n : Nat} (after : r.index < n) (last : n ≤ r.count) {rest : String}
      (there : r.opening (n - 1) ++ rest ∈ given) : Fate r given (r.opening n ++ rest)

/-- Controls of the earlier form that are left have got their names in the later one. -/
def Carried (r : Removal) (p q : Progress) : Prop := ∀ name ∈ p.controlIds, r.Fate q.controlIds name

/-- As long as the group has no key, all names are spared; in any case controls have been carried
over. -/
structure Clean (r : Removal) (key : String) (p q : Progress) : Prop where
  tidy : key ∉ p.groupKeys → r.Tidy p ∧ r.Tidy q
  carried : r.Carried p q

/-- The earlier form is laid out from `p` to `p'` and the later one from `q` to `q'`. Of the fields of
the former outside of the group those with a spared name are also in the latter, and if all names are
spared then the latter is what is expected. -/
structure Contracted (r : Removal) (key : String) (outset : Registry) (p q p' q' : Progress)
    (fields fields' : List PlacedField) (groups : List Group) (expected : Prop) : Prop where
  alongside : r.Alongside key outset p' q'
  kept : ∀ f ∈ fields, r.Spares f.controlId → f ∈ fields'
  exact : (∀ f ∈ fields, r.Spares f.controlId) → (∀ g ∈ groups, r.Spares g.key) →
    r.Clean key p q → expected ∧ r.Clean key p' q'

section

variable {key opening : String} {outset : Registry} {p q p' q' p'' q'' : Progress}
  {fields fields' more more' : List PlacedField} {groups further : List Group} {expected other : Prop}

theorem Contracted.refl (h : r.Alongside key outset p q) :
    r.Contracted key outset p q p q [] [] [] True :=
  ⟨h, fun _ hf => absurd hf List.not_mem_nil, fun _ _ clean => ⟨trivial, clean⟩⟩

theorem Contracted.trans (h : r.Contracted key outset p q p' q' fields fields' groups expected)
    (h' : r.Contracted key outset p' q' p'' q'' more more' further other) :
    r.Contracted key outset p q p'' q'' (fields ++ more) (fields' ++ more') (groups ++ further)
      (expected ∧ other) where
  alongside := h'.alongside
  kept := by
    intro f hf spared
    rcases List.mem_append.1 hf with hf | hf
    · exact List.mem_append_left _ (h.kept f hf spared)
    · exact List.mem_append_right _ (h'.kept f hf spared)
  exact := by
    intro spared spared' clean
    obtain ⟨first, clean⟩ := h.exact (fun f hf => spared f (List.mem_append_left _ hf))
      (fun g hg => spared' g (List.mem_append_left _ hg)) clean
    obtain ⟨second, clean⟩ := h'.exact (fun f hf => spared f (List.mem_append_right _ hf))
      (fun g hg => spared' g (List.mem_append_right _ hg)) clean
    exact ⟨⟨first, second⟩, clean⟩

theorem Contracted.imp (h : r.Contracted key outset p q p' q' fields fields' groups expected)
    (weaker : expected → other) : r.Contracted key outset p q p' q' fields fields' groups other :=
  ⟨h.alongside, h.kept, fun spared spared' clean =>
    (h.exact spared spared' clean).imp_left weaker⟩

theorem Fate.mono {given given' : List String} {name : String} (h : r.Fate given name)
    (more : given ⊆ given') : r.Fate given' name := by
  cases h with
  | stays spared there => exact .stays spared (more there)
  | goes rest => exact .goes rest
  | moves after last there => exact .moves after last (more there)

/-- A name that is left has been given as it is changed. -/
theorem Fate.mem_of_rename? {given : List String} {name later : String} (h : r.Fate given name)
    (limit : r.count < Slot.indexLimit) (range : r.index ≤ r.count)
    (renamed : r.rename? name = some later) :
    later ∈ given := by
  cases h with
  | stays spared there =>
    rw [(spares_iff_rename? range).1 spared] at renamed
    exact Option.some.inj renamed ▸ there
  | goes rest =>
    rw [rename?_opening_self limit range] at renamed
    cases renamed
  | moves after last there =>
    rw [rename?_opening limit last after] at renamed
    exact Option.some.inj renamed ▸ there

/-- What stands under a name that is left stands under the name as it is changed. -/
theorem Fate.get?_shift {α : Type} {t : Table α} {given : List String} {name later : String} {v : α}
    (h : r.Fate given name) (limit : r.count < Slot.indexLimit) (range : r.index ≤ r.count)
    (ascending : t.Ascending) (renamed : r.rename? name = some later)
    (found : Table.get? name t = some v) : Table.get? later (r.shift t) = some v := by
  cases h with
  | stays spared there =>
    rw [(spares_iff_rename? range).1 spared] at renamed
    obtain rfl := Option.some.inj renamed
    rw [get?_shift_of_spares limit ascending range spared, found]
  | goes rest =>
    rw [rename?_opening_self limit range] at renamed
    cases renamed
  | moves after last there =>
    rw [rename?_opening limit last after] at renamed
    obtain rfl := Option.some.inj renamed
    exact get?_shift_opening limit ascending after last found

/-- What the later form gives more does not matter for the controls carried over so far. -/
theorem Carried.mono (h : r.Carried p q) (more : q.controlIds ⊆ q'.controlIds) : r.Carried p q' :=
  fun name there => (h name there).mono more

theorem Carried.after (h : r.Carried p q) (grown : Grown opening p p' fields groups)
    (new : ∀ f ∈ fields, r.Fate q.controlIds f.controlId) : r.Carried p' q := by
  intro name there
  rw [grown.controlIds, List.mem_append, List.mem_reverse] at there
  rcases there with there | there
  · obtain ⟨f, hf, rfl⟩ := List.mem_map.1 there
    exact new f hf
  · exact h name there

theorem placeField_contracted (h : r.Alongside key outset p q)
    (scope : Scope) (f : Field) :
    r.Contracted key outset p q (placeField scope p f).2 (placeField scope q f).2
      [(placeField scope p f).1] [(placeField scope q f).1] []
      ((placeField scope q f).1 = (placeField scope p f).1) := by
  have named := h.controlName (scope.identifier f.id)
  have same : r.Spares (placeField scope p f).1.controlId →
      (placeField scope q f).1 = (placeField scope p f).1 := by
    intro spared
    obtain ⟨-, given⟩ := named.resolve_right fun away => away.1 spared
    rw [placeField_eq, placeField_eq, given]
  refine ⟨h.nameControl _, fun f' hf spared => ?_, fun spared _ clean => ?_⟩
  · obtain rfl := List.mem_singleton.1 hf
    rw [same spared]
    exact List.mem_singleton_self _
  · have first := spared _ (List.mem_singleton_self _)
    change r.Spares (p.controlName (scope.identifier f.id)) at first
    obtain ⟨-, given⟩ := named.resolve_right fun away => away.1 first
    refine ⟨same first, fun unnamed => ?_, ?_⟩
    · obtain ⟨tidy, tidy'⟩ := clean.tidy unnamed
      refine ⟨⟨List.forall_mem_cons.2 ⟨first, tidy.controls⟩, tidy.groups⟩, ?_, tidy'.groups⟩
      have first' : r.Spares (q.controlName (scope.identifier f.id)) := given.symm ▸ first
      exact List.forall_mem_cons.2 ⟨first', tidy'.controls⟩
    · have there : p.controlName (scope.identifier f.id) ∈ (placeField scope q f).2.controlIds :=
        given ▸ List.mem_cons_self
      have more := (placeField_grown h.distinct' scope f).controlIds_subset
      exact List.forall_mem_cons.2 ⟨.stays first there, clean.carried.mono more⟩

theorem placeFields_contracted (h : r.Alongside key outset p q)
    (scope : Scope) (fields : List Field) :
    let placed := threaded (placeField scope) p fields
    let placed' := threaded (placeField scope) q fields
    r.Contracted key outset p q placed.2 placed'.2 placed.1 placed'.1 [] (placed'.1 = placed.1) := by
  induction fields generalizing p q with
  | nil => exact (Contracted.refl h).imp fun _ => rfl
  | cons f fields ih =>
    have first := placeField_contracted h scope f
    refine (first.trans (ih first.alongside)).imp ?_
    rintro ⟨same, others⟩
    rw [threaded_cons, threaded_cons, same, others]

variable {layout layout' : Layout} {final : Registry}

def BelowContracted (r : Removal) (key : String) (layout layout' : Layout) (final outset : Registry)
    (scope : Scope) (subsections : List Blueprint) : Prop :=
  ∀ {p q : Progress}, r.Alongside key outset p q →
    (layOutList layout scope p subsections).2.Lasts final →
    let below := layOutList layout scope p subsections
    let below' := layOutList layout' scope q subsections
    r.Contracted key outset p q below.2 below'.2 (Group.listFieldsOutside key below.1)
      (Group.listFieldsOutside key below'.1) (Group.listGroupsOutside key below.1)
      (below'.1 = Group.listWithout key r below.1)

theorem layOutBody_contracted {scope : Scope} (fields : List Field)
    {subsections : List Blueprint}
    (below : r.BelowContracted key layout layout' final outset scope subsections)
    (h : r.Alongside key outset p q)
    (lasts : (layOutBody layout scope fields subsections p).2.Lasts final) :
    let body := layOutBody layout scope fields subsections p
    let body' := layOutBody layout' scope fields subsections q
    r.Contracted key outset p q body.2 body'.2 (body.1.1 ++ Group.listFieldsOutside key body.1.2)
      (body'.1.1 ++ Group.listFieldsOutside key body'.1.2) (Group.listGroupsOutside key body.1.2)
      (body'.1 = (body.1.1, Group.listWithout key r body.1.2)) := by
  have placed := placeFields_contracted h scope fields
  refine (placed.trans (below placed.alongside lasts)).imp ?_
  rintro ⟨own, groups⟩
  exact Prod.ext own groups

/-- Instances with the same numbers, given what is laid out in each of them. -/
theorem layOutInstances_contracted {scope : Scope} (group caption : String)
    (fields : List Field) {subsections : List Blueprint}
    (below : ∀ index, r.BelowContracted key layout layout' final outset
      (instanceScope scope group index) subsections)
    (h : r.Alongside key outset p q) (indices : List Nat) :
    let laid := threaded (layOutInstance layout scope group caption fields subsections) p indices
    let laid' := threaded (layOutInstance layout' scope group caption fields subsections) q indices
    laid.2.Lasts final →
      r.Contracted key outset p q laid.2 laid'.2 (GroupInstance.listFieldsOutside key laid.1)
        (GroupInstance.listFieldsOutside key laid'.1) (GroupInstance.listGroupsOutside key laid.1)
        (laid'.1 = GroupInstance.listWithout key r laid.1) := by
  induction indices generalizing p q with
  | nil => exact fun _ => (Contracted.refl h).imp fun _ => rfl
  | cons index indices ih =>
    intro laid laid' lasts
    have grown := layOutBody_grown layout (instanceScope scope group index) fields subsections h.distinct
    have others := layOutInstances_grown layout scope group caption fields subsections grown.distinct
      indices
    have body := layOutBody_contracted fields (below index) h (lasts.before others)
    refine (body.trans (ih body.alongside lasts)).imp ?_
    rintro ⟨same, same'⟩
    have first : (layOutInstance layout' scope group caption fields subsections q index).1 ::
        laid'.1.tail = GroupInstance.listWithout key r laid.1 := by
      unfold layOutInstance
      dsimp only
      rw [same]
      exact congrArg _ same'
    exact first

end

end Removal

end Formwork
