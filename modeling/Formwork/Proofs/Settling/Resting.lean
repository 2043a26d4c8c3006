import Formwork.Proofs.Settling.Refreshing

/-!
# Dependencies at rest

A child is at rest if following its dependency once more would leave it as it is, lock, choices and value.
Following a dependency brings its child to rest, and later steps keep it there as long as they touch neither
the child nor its parent. So parents before children, one pass over dependencies that give no control two
parents brings them all to rest.
-/
namespace Formwork

theorem Choice.beq_self (c : Choice) : (c == c) = true := by
  have parts : (c == c) = (c.value == c.value && c.label == c.label && c.raw == c.raw) := rfl
  rw [parts, Json.beq_self, Json.beq_self, beq_self_eq_true, Bool.and_self, Bool.and_self]

instance : ReflBEq Choice := ⟨Choice.beq_self _⟩

namespace Dependent

/-- The child is locked just where the parent is empty, a locked one is disabled, it has the choices that
link to the value of the parent, and its value is not lost to that. -/
structure Rests (link : String) (parent : Json) (child : Control) (offer : Option Offer) : Prop where
  locked : child.dependencyLocked = !parent.isFilled
  disabled : child.dependencyLocked = true → child.disabled = true
  narrowed : offer.map (.narrowTo link parent) = offer
  kept : losesValue link parent offer child.value = false

variable (link : String) (parent : Json)

theorem losesValue_follow (d : Dependent) :
    losesValue link parent (d.follow link parent).offer (d.follow link parent).control.value = false := by
  have stock : (d.follow link parent).offer.map Offer.stock = d.offer.map Offer.stock := by
    rw [follow_offer, Option.map_map]
    rfl
  rw [losesValue_congr stock, follow_value]
  cases lost : losesValue link parent d.offer d.control.value with
  | false => exact lost
  | true => simp [losesValue, Json.isFilled_emptied]

/-- Following a dependency brings the child to rest. -/
theorem rests_follow (d : Dependent) :
    Rests link parent (d.follow link parent).control (d.follow link parent).offer := by
  have locked : (d.follow link parent).control.dependencyLocked = !parent.isFilled := by
    have written := congrArg Control.dependencyLocked (follow_unshown link parent d)
    rw [apply_ite Control.dependencyLocked] at written
    exact written.trans (ite_self _)
  refine ⟨locked, fun held => ?_, ?_, losesValue_follow link parent d⟩
  · have empty : parent.isFilled = false := by rwa [locked, Bool.not_eq_true'] at held
    cases filled : d.control.value.isFilled <;>
      simp [follow, empty, lock, filled, Control.clear, Control.set]
  · rw [follow_offer, Option.map_map]
    rfl

variable {link parent}

/-- Nothing at all happens to a child at rest. -/
theorem follow_of_rests {d : Dependent} (h : Rests link parent d.control d.offer) :
    d.follow link parent = d := by
  obtain ⟨c, offer, changed⟩ := d
  obtain ⟨locked, disabled, narrowed, kept⟩ := h
  dsimp only at locked disabled narrowed kept
  cases filled : parent.isFilled with
  | false =>
    rw [filled, Bool.not_false] at locked
    have empty : c.value.isFilled = false := by simpa [losesValue, filled] using kept
    have held : { c with dependencyLocked := true, disabled := true } = c := by
      obtain ⟨_, _, _, _, _, _, _, _, _⟩ := c
      cases locked
      cases disabled rfl
      rfl
    cases offer with
    | none => simp [follow, filled, lock, empty, locked, disabled locked, held]
    | some o =>
      have none : o.available = [] := by
        have narrowed := congrArg Offer.available (Option.some.inj narrowed)
        rw [← narrowed, Offer.narrowTo, Choice.narrow, filled]
        rfl
      have same : { o with available := [] } = o := by rw [← none]
      simp [follow, filled, lock, empty, locked, disabled locked, held, none, same]
  | true =>
    rw [filled, Bool.not_true] at locked
    cases offer with
    | none => simp [follow, filled, unlock, locked, narrow]
    | some o =>
      have same : { o with available := Choice.narrow o.all link parent } = o :=
        Option.some.inj narrowed
      have available : Choice.narrow o.all link parent = o.available := congrArg Offer.available same
      have stays : (o.loaded && c.value.isFilled && !Choice.allow o.available c.value) = false := by
        rw [← available, ← kept, losesValue, filled, Option.any_some]
        cases o.loaded <;> cases c.value.isFilled <;> rfl
      simp [follow, filled, unlock, locked, narrow, available, stays]

end Dependent

namespace Refresh

variable {config : Config} {r : Refresh} {e : Dependency}

/-- The child of the dependency is at rest, if it and the rule are there. -/
def AtRest (config : Config) (r : Refresh) (e : Dependency) : Prop :=
  ∀ rule child, config.dependentRules[e.rule]? = some rule → r.controls.get? e.child = some child →
    Dependent.Rests rule.linkProperty (e.parentValue r.controls) child (r.catalog.offer? e.child) ∧
      Table.adjust e.child (.narrowTo rule.linkProperty (e.parentValue r.controls)) r.catalog.offers =
        r.catalog.offers

/-- Following a dependency brings its child to rest, unless a control depends on itself. -/
theorem atRest_follow (apart : e.parent ≠ e.child) : AtRest config (follow config r e) e := by
  intro rule child hrule found
  obtain ⟨before, hchild⟩ : ∃ c, r.controls.get? e.child = some c := by
    rw [ControlSet.exists_get?_iff, ← ids_follow config r e, ← ControlSet.exists_get?_iff]
    exact ⟨child, found⟩
  have offer := Dependent.follow_offer rule.linkProperty (e.parentValue r.controls)
    ⟨before, r.catalog.offer? e.child, r.changed⟩
  have rests := Dependent.rests_follow rule.linkProperty (e.parentValue r.controls)
    ⟨before, r.catalog.offer? e.child, r.changed⟩
  rw [offer] at rests
  rw [follow_of_some hrule hchild] at found ⊢
  simp only [ControlSet.get?_modify_self, hchild, Option.map_some, Option.some.injEq] at found
  have parent (c : Control) :
      e.parentValue (r.controls.modify e.child fun _ => c) = e.parentValue r.controls := by
    rw [Dependency.parentValue, Dependency.parentValue, ControlSet.value?,
      ControlSet.get?_modify_of_ne apart, ControlSet.value?]
  simp only [parent, Catalog.offer?, Table.get?_adjust_self, ← found]
  exact ⟨rests, Table.adjust_adjust _ (Offer.narrowTo_narrowTo _ _ _ _) _⟩

/-- A child at rest stays there when neither it nor its parent is touched. -/
theorem AtRest.follow {d : Dependency} (h : AtRest config r e) (child : e.child ≠ d.child)
    (parent : e.parent ≠ d.child) : AtRest config (follow config r d) e := by
  rcases follow_cases config r d with ⟨same, -⟩ | ⟨rule, before, hrule, hbefore⟩
  · rw [same]
    exact h
  · rw [follow_of_some hrule hbefore]
    intro rule' c hrule' found
    simp only [ControlSet.get?_modify_of_ne child] at found
    obtain ⟨rests, narrowed⟩ := h rule' c hrule' found
    simp only [Dependency.parentValue, ControlSet.value?, ControlSet.get?_modify_of_ne parent,
      Catalog.offer?, Table.get?_adjust_of_ne child] at rests narrowed ⊢
    refine ⟨rests, ?_⟩
    rw [Table.adjust_comm child, narrowed]

/-- Nothing happens when a dependency at rest is followed. -/
theorem follow_of_atRest (distinct : r.controls.ids.Nodup) (h : AtRest config r e) :
    Refresh.follow config r e = r := by
  rcases follow_cases config r e with ⟨same, -⟩ | ⟨rule, child, hrule, hchild⟩
  · exact same
  · obtain ⟨rests, narrowed⟩ := h rule child hrule hchild
    have controls : (r.controls.modify e.child fun _ => child) = r.controls :=
      (ControlSet.modify_const_of_get? distinct hchild id).trans (ControlSet.modify_id _ _)
    have still := Dependent.follow_of_rests (d := ⟨child, r.catalog.offer? e.child, r.changed⟩) rests
    rw [follow_of_some hrule hchild, still]
    dsimp only
    rw [controls, narrowed]

variable {edges : List Dependency}

theorem AtRest.foldl_follow (h : AtRest config r e)
    (others : ∀ d ∈ edges, e.child ≠ d.child ∧ e.parent ≠ d.child) :
    AtRest config (edges.foldl (Refresh.follow config) r) e := by
  induction edges generalizing r with
  | nil => exact h
  | cons d edges ih =>
    obtain ⟨first, others⟩ := List.forall_mem_cons.1 others
    exact ih (h.follow first.1 first.2) others

/-- One pass brings all dependencies to rest, if none has a child that an earlier one is about and no control
depends on itself. -/
theorem atRest_foldl_follow
    (sweep : edges.Pairwise fun d e => d.child ≠ e.child ∧ d.parent ≠ e.child)
    (apart : ∀ e ∈ edges, e.parent ≠ e.child) :
    ∀ e ∈ edges, AtRest config (edges.foldl (Refresh.follow config) r) e := by
  induction edges generalizing r with
  | nil => exact fun _ he => absurd he List.not_mem_nil
  | cons d edges ih =>
    obtain ⟨first, sweep⟩ := List.pairwise_cons.1 sweep
    obtain ⟨own, apart⟩ := List.forall_mem_cons.1 apart
    intro e he
    rcases List.mem_cons.1 he with rfl | he
    · exact (atRest_follow own).foldl_follow first
    · exact ih sweep apart e he

/-- Nothing happens when dependencies at rest are followed. -/
theorem foldl_follow_of_atRest (distinct : r.controls.ids.Nodup) (h : ∀ e ∈ edges, AtRest config r e) :
    edges.foldl (Refresh.follow config) r = r := by
  induction edges with
  | nil => rfl
  | cons e edges ih =>
    obtain ⟨first, rest⟩ := List.forall_mem_cons.1 h
    rw [List.foldl_cons, follow_of_atRest distinct first, ih rest]

end Refresh

end Formwork
