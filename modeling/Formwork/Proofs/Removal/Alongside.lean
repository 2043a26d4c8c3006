import Formwork.Proofs.Layout.Records
import Formwork.Proofs.Removal.Slots

/-!
# Two forms side by side

Before and after a removal a form is laid out from the same template. As long as both layouts are outside
of the group, or in an instance of it that stays where it is, they run side by side: the names that are
spared are given to the same controls and groups. Names that read as later instances may differ, but no
name that is spared is a variant of one of them, and none of them changes a count under a name that is
spared, or what is entered under it.
-/
namespace Formwork

open Progress Blueprint

namespace Removal

/-- Two forms laid out as far as the same place outside of the group registered under `key`. -/
structure Alongside (r : Removal) (key : String) (outset : Registry) (p q : Progress) : Prop where
  controls : ∀ name, r.Spares name → (name ∈ p.controlIds ↔ name ∈ q.controlIds)
  groups : ∀ name, r.Spares name → (name ∈ p.groupKeys ↔ name ∈ q.groupKeys)
  distinct : p.Distinct
  distinct' : q.Distinct
  untouched : q.Untouched outset
  fixed : ∀ other, r.Spares other → other ≠ key → q.registry.count? other = outset.count? other
  entries : ∀ name, r.Spares name → q.registry.entry? name = p.registry.entry? name

structure Aside (r : Removal) (p q : Progress) : Prop where
  controls : ∀ name, r.Spares name → (name ∈ q.controlIds ↔ name ∈ p.controlIds)
  groups : ∀ name, r.Spares name → (name ∈ q.groupKeys ↔ name ∈ p.groupKeys)
  counts : ∀ name, r.Spares name → q.registry.count? name = p.registry.count? name
  entries : ∀ name, r.Spares name → q.registry.entry? name = p.registry.entry? name

variable {r : Removal} {key : String} {outset : Registry} {p q p' q' : Progress} {opening : String}
  {fields : List PlacedField} {groups : List Group}

theorem Spares.of_grown_field (h : Grown opening p q fields groups) {f : PlacedField} (hf : f ∈ fields)
    (spared : r.Spares f.controlId) : r.Spares opening := by
  obtain ⟨rest, begins⟩ := h.openFields f hf
  rw [begins] at spared
  exact spared.of_append

theorem Spares.of_grown_group (h : Grown opening p q fields groups) {g : Group} (hg : g ∈ groups)
    (spared : r.Spares g.key) : r.Spares opening := by
  obtain ⟨rest, begins⟩ := h.openGroups g hg
  rw [begins] at spared
  exact spared.of_append

/-- What begins with a name that is not spared is not spared. -/
theorem Aside.of_grown (h : Grown opening p q fields groups) (away : ¬r.Spares opening) :
    r.Aside p q := by
  have kept : ∀ name, r.Spares name → q.registry.count? name = p.registry.count? name ∧
      q.registry.entry? name = p.registry.entry? name := by
    refine fun name spared => h.kept name fun g hg repeats => ?_
    obtain ⟨rfl, -⟩ := h.counted g hg name repeats
    exact away (.of_grown_group h hg spared)
  refine ⟨fun name spared => ?_, fun name spared => ?_, fun name spared => (kept name spared).1,
    fun name spared => (kept name spared).2⟩
  · rw [h.controlIds, List.mem_append, List.mem_reverse]
    refine ⟨fun there => there.resolve_left fun new => ?_, .inr⟩
    obtain ⟨f, hf, rfl⟩ := List.mem_map.1 new
    exact away (.of_grown_field h hf spared)
  · rw [h.groupKeys, List.mem_append, List.mem_reverse]
    refine ⟨fun there => there.resolve_left fun new => ?_, .inr⟩
    obtain ⟨g, hg, rfl⟩ := List.mem_map.1 new
    exact away (.of_grown_group h hg spared)

theorem Aside.refl (r : Removal) (p : Progress) : r.Aside p p :=
  ⟨fun _ _ => Iff.rfl, fun _ _ => Iff.rfl, fun _ _ => rfl, fun _ _ => rfl⟩

theorem Aside.trans (h : r.Aside p q) (h' : r.Aside q q') : r.Aside p q' where
  controls := fun name spared => (h'.controls name spared).trans (h.controls name spared)
  groups := fun name spared => (h'.groups name spared).trans (h.groups name spared)
  counts := fun name spared => (h'.counts name spared).trans (h.counts name spared)
  entries := fun name spared => (h'.entries name spared).trans (h.entries name spared)

/-- Names that are not spared do not part two layouts. -/
theorem Alongside.aside (h : r.Alongside key outset p q) (old : r.Aside p p') (new : r.Aside q q')
    (distinct : p'.Distinct) (distinct' : q'.Distinct) (untouched : q'.Untouched outset) :
    r.Alongside key outset p' q' where
  controls := fun name spared =>
    (old.controls name spared).trans ((h.controls name spared).trans (new.controls name spared).symm)
  groups := fun name spared =>
    (old.groups name spared).trans ((h.groups name spared).trans (new.groups name spared).symm)
  distinct := distinct
  distinct' := distinct'
  untouched := untouched
  fixed := fun other spared apart => (new.counts other spared).trans (h.fixed other spared apart)
  entries := fun name spared =>
    (new.entries name spared).trans ((h.entries name spared).trans (old.entries name spared).symm)

section

variable {candidate : String} {numbered : Nat → String}
  (distinct : ∀ i j, numbered i = numbered j → i = j)
  (shorter : ∀ i, r.Spares (numbered i) → r.Spares candidate)
  (alike : ∀ i j, r.Spares (numbered i) → r.Spares (numbered j))

include distinct shorter alike

/-- Where the names that are spared are taken alike, a name that is spared is given alike. -/
theorem unusedName_of_spares {taken taken' : List String}
    (h : ∀ name, r.Spares name → (name ∈ taken ↔ name ∈ taken'))
    (spared : r.Spares (unusedName candidate numbered taken)) :
    unusedName candidate numbered taken' = unusedName candidate numbered taken := by
  obtain ⟨m, chosen, free, -⟩ := unusedName_eq_variant candidate distinct taken
  rw [chosen] at spared
  by_cases first : m < 2
  · rw [variant, if_pos first] at spared free chosen
    rw [chosen]
    exact if_neg fun there => free ((h candidate spared).2 there)
  · rw [variant, if_neg first] at spared
    have variants : ∀ n, r.Spares (variant candidate numbered n) := by
      intro n
      unfold variant
      split
      · exact shorter m spared
      · exact alike m n spared
    obtain ⟨n, same, same'⟩ := unusedName_parallel candidate distinct taken candidate distinct
      fun n => h _ (variants n)
    exact same'.trans same.symm

/-- Where the names that are spared are taken alike, either the names given are the same or neither is
spared. -/
theorem unusedName_alike {taken taken' : List String}
    (h : ∀ name, r.Spares name → (name ∈ taken ↔ name ∈ taken')) :
    (r.Spares (unusedName candidate numbered taken) ∧
        unusedName candidate numbered taken' = unusedName candidate numbered taken) ∨
      (¬r.Spares (unusedName candidate numbered taken) ∧
        ¬r.Spares (unusedName candidate numbered taken')) := by
  by_cases spared : r.Spares (unusedName candidate numbered taken)
  · exact .inl ⟨spared, unusedName_of_spares distinct shorter alike h spared⟩
  · refine .inr ⟨spared, fun spared' => spared ?_⟩
    have h' : ∀ name, r.Spares name → (name ∈ taken' ↔ name ∈ taken) := fun name hs => (h name hs).symm
    rwa [unusedName_of_spares distinct shorter alike h' spared']

end

theorem Alongside.controlName (h : r.Alongside key outset p q) (candidate : String) :
    (r.Spares (p.controlName candidate) ∧ q.controlName candidate = p.controlName candidate) ∨
      (¬r.Spares (p.controlName candidate) ∧ ¬r.Spares (q.controlName candidate)) := by
  refine unusedName_alike (controlVariant_injective candidate) (fun i spared => ?_)
    (fun i j spared => ?_) h.controls
  · exact ((spares_controlVariant_iff candidate i).1 spared).of_append
  · exact (spares_controlVariant_iff candidate j).2 ((spares_controlVariant_iff candidate i).1 spared)

theorem Alongside.groupName (h : r.Alongside key outset p q) (candidate : String) :
    (r.Spares (p.groupName candidate) ∧ q.groupName candidate = p.groupName candidate) ∨
      (¬r.Spares (p.groupName candidate) ∧ ¬r.Spares (q.groupName candidate)) := by
  refine unusedName_alike (groupVariant_injective candidate) (fun i spared => ?_)
    (fun i j spared => ?_) h.groups
  · exact (spares_groupVariant_iff candidate i).1 spared
  · exact (spares_groupVariant_iff candidate j).2 ((spares_groupVariant_iff candidate i).1 spared)

/-- Names given in both layouts, alike or neither spared. -/
theorem mem_cons_alike {a a' name : String} {l l' : List String} (h : name ∈ l ↔ name ∈ l')
    (given : (r.Spares a ∧ a' = a) ∨ (¬r.Spares a ∧ ¬r.Spares a')) (spared : r.Spares name) :
    name ∈ a :: l ↔ name ∈ a' :: l' := by
  rw [List.mem_cons, List.mem_cons, h]
  rcases given with ⟨-, rfl⟩ | ⟨away, away'⟩
  · exact Iff.rfl
  · have ne : name ≠ a := fun same => away (same ▸ spared)
    have ne' : name ≠ a' := fun same => away' (same ▸ spared)
    rw [or_iff_right ne, or_iff_right ne']

theorem Alongside.nameControl (h : r.Alongside key outset p q) (candidate : String) :
    r.Alongside key outset (p.nameControl candidate).2 (q.nameControl candidate).2 where
  controls := fun name spared => mem_cons_alike (h.controls name spared) (h.controlName candidate) spared
  groups := h.groups
  distinct := h.distinct.nameControl candidate
  distinct' := h.distinct'.nameControl candidate
  untouched := h.untouched
  fixed := h.fixed
  entries := h.entries

theorem Alongside.nameGroup (h : r.Alongside key outset p q) (candidate : String) :
    r.Alongside key outset (p.nameGroup candidate).2 (q.nameGroup candidate).2 where
  controls := h.controls
  groups := fun name spared => mem_cons_alike (h.groups name spared) (h.groupName candidate) spared
  distinct := h.distinct.nameGroup candidate
  distinct' := h.distinct'.nameGroup candidate
  untouched := fun other unnamed => h.untouched other fun there => unnamed (List.mem_cons_of_mem _ there)
  fixed := h.fixed
  entries := h.entries

end Removal

end Formwork
