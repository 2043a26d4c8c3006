import Formwork.Proofs.Layout.Growth

/-!
# Counts before and after laying out

What is recorded under a key when the group is laid out is still there when everything is laid out, and
nothing is recorded under a key before a group has it. A form that is laid out again with counts that it
settled itself settles them in the same way.
-/
namespace Formwork

theorem RepeatBounds.clamp_clamp (b : RepeatBounds) (n : Nat) : b.clamp (b.clamp n) = b.clamp n := by
  have clamped : ∀ n, b.clamp n = Min.min (Max.max n b.min) b.max := fun _ => rfl
  rw [clamped, clamped]
  omega

namespace Progress

/-- What is recorded under the keys given so far is what `final` says. -/
def Lasts (p : Progress) (final : Registry) : Prop :=
  ∀ key ∈ p.groupKeys,
    final.count? key = p.registry.count? key ∧ final.entry? key = p.registry.entry? key

/-- The counts under all other keys are those of `outset`. -/
def Untouched (p : Progress) (outset : Registry) : Prop :=
  ∀ key, key ∉ p.groupKeys → p.registry.count? key = outset.count? key

variable {opening : String} {p q : Progress} {fields : List PlacedField} {groups : List Group}

theorem Lasts.before {final : Registry} (h : Grown opening p q fields groups) (lasts : q.Lasts final) :
    p.Lasts final := by
  intro key named
  have later : key ∈ q.groupKeys := by
    rw [h.groupKeys]
    exact List.mem_append_right _ named
  obtain ⟨count, entry⟩ := lasts key later
  obtain ⟨count', entry'⟩ := h.kept key (h.repeatKey_ne named)
  exact ⟨count.trans count', entry.trans entry'⟩

theorem Untouched.after {outset : Registry} (h : Grown opening p q fields groups)
    (untouched : p.Untouched outset) : q.Untouched outset := by
  intro key unnamed
  rw [h.groupKeys, List.mem_append, not_or] at unnamed
  have absent : ∀ g ∈ groups, g.repeatKey ≠ some key := by
    intro g hg repeats
    obtain ⟨rfl, -⟩ := h.counted g hg key repeats
    exact unnamed.1 (List.mem_reverse.2 (List.mem_map_of_mem hg))
  exact (h.kept key absent).1.trans (untouched key unnamed.2)

end Progress

namespace Blueprint

open Progress

variable (layout : Layout) (kind : GroupKind) (scope : Scope) (s : Section) (spec : RepeatSpec)
  {p : Progress}

def settled (layout : Layout) (kind : GroupKind) (scope : Scope) (s : Section) (spec : RepeatSpec)
    (p : Progress) : Nat × Progress :=
  (p.nameGroup (candidate scope s)).2.settle
    (.ofSection (p.groupName (candidate scope s)) kind s spec layout.fallbackMax) layout.stored

variable {s} in
/-- A repeated section is laid out once it has its key and its count. -/
theorem layOut_of_settled (p : Progress) (fields : List Field) (subsections : List Blueprint)
    {spec : RepeatSpec} (h : s.repeats? = some spec) :
    let key := p.groupName (candidate scope s)
    let instances := threaded
      (layOutInstance layout scope key (s.instanceLabel spec) fields subsections)
      (settled layout kind scope s spec p).2 (List.range' 1 (settled layout kind scope s spec p).1)
    layOut layout kind scope p ⟨s, fields, subsections⟩ =
      (⟨key, s.title, kind, s.isEnabled, effectiveConditions s.conditions s.visibility, scope,
        some key, instances.1⟩, instances.2) :=
  layOut_of_repeated layout kind scope p fields subsections h

theorem distinct_settled (h : p.Distinct) : (settled layout kind scope s spec p).2.Distinct :=
  (h.nameGroup _).settle _ _

theorem untouched_settled {outset : Registry} (h : p.Untouched outset) :
    (settled layout kind scope s spec p).2.Untouched outset := by
  intro key unnamed
  obtain ⟨other, unnamed⟩ := not_or.1 (fun named => unnamed (List.mem_cons.2 named))
  exact (settle_of_ne other _ _).1.trans (h key unnamed)

/-- Settling a count enters the group and no other. -/
theorem entry?_settled (name : String) :
    (settled layout kind scope s spec p).2.registry.entry? name =
      if name = p.groupName (candidate scope s) then
        some (.ofSection (p.groupName (candidate scope s)) kind s spec layout.fallbackMax)
      else p.registry.entry? name := by
  let entry := RepeatEntry.ofSection (p.groupName (candidate scope s)) kind s spec layout.fallbackMax
  split
  · rename_i same
    subst same
    exact (settle_self entry layout.stored (p.nameGroup (candidate scope s)).2).2
  · rename_i other
    have other : name ≠ entry.key := other
    exact (settle_of_ne other layout.stored (p.nameGroup (candidate scope s)).2).2

/-- The count that is settled is what is known in the end. -/
theorem count?_of_lasts {final : Registry} (h : (settled layout kind scope s spec p).2.Lasts final) :
    final.count? (p.groupName (candidate scope s)) = some (settled layout kind scope s spec p).1 ∧
      final.entry? (p.groupName (candidate scope s)) =
        some (.ofSection (p.groupName (candidate scope s)) kind s spec layout.fallbackMax) := by
  obtain ⟨count, entry⟩ := h (p.groupName (candidate scope s)) List.mem_cons_self
  obtain ⟨count', entry'⟩ := settle_self
    (.ofSection (p.groupName (candidate scope s)) kind s spec layout.fallbackMax) layout.stored
    (p.nameGroup (candidate scope s)).2
  exact ⟨count.trans count', entry.trans entry'⟩

/-- Where a count is recorded, it is settled by bringing it within the bounds. -/
theorem settled_of_untouched {outset : Registry} (h : p.Untouched outset) {n : Nat}
    (recorded : outset.count? (p.groupName (candidate scope s)) = some n) :
    (settled layout kind scope s spec p).1 = (RepeatBounds.ofSpec spec layout.fallbackMax).clamp n := by
  have count := (h _ (p.groupName_not_mem (candidate scope s))).trans recorded
  have there : (p.nameGroup (candidate scope s)).2.registry.count?
      (RepeatEntry.ofSection (p.groupName (candidate scope s)) kind s spec layout.fallbackMax).key =
      some n := count
  simp only [settled, settle, Registry.countFor, there]
  rfl

/-- A count that is settled is within the bounds. -/
theorem settled_eq_clamp :
    ∃ n, (settled layout kind scope s spec p).1 =
      (RepeatBounds.ofSpec spec layout.fallbackMax).clamp n :=
  ⟨_, rfl⟩

end Blueprint

end Formwork
