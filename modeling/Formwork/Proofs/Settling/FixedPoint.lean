import Formwork.Proofs.Settling.Presenting
import Formwork.Proofs.Visibility.Placements
import Formwork.Session.Basic

/-!
# Settling reaches a fixed point

A round is quiet if it takes no value. After a quiet round another one changes nothing whatever, even
if the round itself reports a change, as it does for ever where two parents lock and unlock one child.
Any other round leaves fewer controls filled in, so that there are not more of them than controls.
-/
namespace Formwork.Session

structure Bound (s : Session) : Prop where
  ids : s.controls.ids = s.tree.fields.map (·.controlId)
  distinct : s.controls.ids.Nodup

/-- The visibility that the current values ask for, field by field. -/
def wanted (s : Session) : List (String × Bool) := (s.tree.plan s.controls).fields

def refresh (s : Session) : Refresh :=
  Refresh.followAll s.config s.dependencies s.controls s.catalog

def marked (s : Session) : ControlSet × Table Offer :=
  s.dependencies.foldl (Dependency.mark s.config s.controls) (s.controls.unshown, s.catalog.offers)

/-- A round takes no value. -/
structure Quiet (s : Session) : Prop where
  respects : Refresh.Respects s.config s.dependencies ⟨s.controls, s.catalog, false⟩
  keeps : ∀ b ∈ s.controls, b.losesValueBy s.wanted = false

theorem round_eq (s : Session) :
    s.round.1 = { s with
      catalog := s.refresh.catalog
      controls := ((s.tree.plan s.refresh.controls).apply s.refresh.controls).1
      groups := (s.tree.plan s.refresh.controls).groupTable } := rfl

theorem round_unreported {s : Session} (h : s.round.2 = false) :
    s.refresh.changed = false ∧
      ((s.tree.plan s.refresh.controls).apply s.refresh.controls).2 = [] := by
  have split : s.round.2 = (s.refresh.changed ||
      !((s.tree.plan s.refresh.controls).apply s.refresh.controls).2.isEmpty) := rfl
  rw [split, Bool.or_eq_false_iff] at h
  exact ⟨h.1, by simpa using h.2⟩

/-- Whether values are lost to a plan can be told from the readings. -/
theorem keeps_congr {s t : ControlSet} (h : s.readings = t.readings) (fields : List (String × Bool)) :
    (∀ b ∈ s, b.losesValueBy fields = false) ↔ ∀ b ∈ t, b.losesValueBy fields = false := by
  have told : ∀ u : ControlSet, (∀ b ∈ u, b.losesValueBy fields = false) ↔
      ∀ r ∈ u.readings, ((Table.get? r.1 fields).any fun v => !v && r.2.2.isTruthy) = false := by
    intro u
    rw [ControlSet.readings, List.forall_mem_map]
    rfl
  rw [told, told, h]

variable {s : Session}

theorem ids_refresh (s : Session) : s.refresh.controls.ids = s.controls.ids := by
  have kept : ∀ (edges : List Dependency) (r : Refresh),
      (edges.foldl (Refresh.follow s.config) r).controls.ids = r.controls.ids := by
    intro edges
    induction edges with
    | nil => exact fun _ => rfl
    | cons e edges ih => exact fun r => (ih _).trans (Refresh.ids_follow ..)
  exact kept s.dependencies ⟨s.controls, s.catalog, false⟩

namespace Bound

theorem once (h : s.Bound) (controls : ControlSet) :
    ((s.tree.plan controls).fields.map (·.1)).Nodup := by
  rw [FormTree.map_fst_plan_fields, ← h.ids]
  exact h.distinct

end Bound

theorem refresh_fades (distinct : s.controls.ids.Nodup) : s.controls.Fades s.refresh.controls :=
  Refresh.foldl_follow_fades (r := ⟨s.controls, s.catalog, false⟩) distinct

theorem presented_fades (s : Session) : s.refresh.controls.Fades s.round.1.controls :=
  VisibilityPlan.apply_fades _ _

/-- A round only makes controls fade. -/
theorem round_fades (distinct : s.controls.ids.Nodup) : s.controls.Fades s.round.1.controls :=
  (refresh_fades distinct).trans s.presented_fades

theorem Bound.round (h : s.Bound) : s.round.1.Bound := by
  have ids := (round_fades h.distinct).wanes.ids
  exact ⟨ids.trans h.ids, by rw [ids]; exact h.distinct⟩

/-- What following the dependencies comes to in a quiet round. -/
theorem Quiet.refresh (bound : s.Bound) (quiet : s.Quiet) :
    Refresh.Alike ⟨s.controls, s.catalog, false⟩ s.refresh ∧
      s.refresh.controls.unshown = s.marked.1 ∧
      s.refresh.catalog = { s.catalog with offers := s.marked.2 } :=
  Refresh.foldl_follow_of_respects bound.distinct quiet.respects

theorem Quiet.plan_refresh (bound : s.Bound) (quiet : s.Quiet) :
    s.tree.plan s.refresh.controls = s.tree.plan s.controls :=
  FormTree.plan_congr (quiet.refresh bound).1.1 s.tree

/-- The controls of which a plan names every one may be presented as if they had never been in view. -/
theorem map_presentBy_unshown {controls : ControlSet} {fields : List (String × Bool)}
    (named : ∀ id ∈ controls.ids, id ∈ fields.map (·.1)) :
    controls.unshown.map (BoundControl.presentBy fields) =
      controls.map (BoundControl.presentBy fields) := by
  rw [ControlSet.unshown, List.map_map]
  refine List.map_congr_left fun b hb => ?_
  have there := named b.id (List.mem_map_of_mem hb)
  have shown : Table.get? b.id fields ≠ none := fun h => Table.get?_eq_none_iff.1 h there
  obtain ⟨visible, found⟩ := Option.ne_none_iff_exists'.1 shown
  simp only [Function.comp, BoundControl.presentBy, found, Control.present_unshown]

/-- A quiet round sets the marks and carries out the plan, and does nothing else. -/
theorem Quiet.round (bound : s.Bound) (quiet : s.Quiet) :
    s.round.1 = { s with
      catalog := { s.catalog with offers := s.marked.2 }
      controls := s.marked.1.map (BoundControl.presentBy s.wanted)
      groups := (s.tree.plan s.controls).groupTable } := by
  obtain ⟨alike, controls, catalog⟩ := quiet.refresh bound
  have named : ∀ id ∈ s.refresh.controls.ids, id ∈ s.wanted.map (·.1) := by
    intro id hid
    rwa [wanted, FormTree.map_fst_plan_fields, ← bound.ids, ← ControlSet.ids_congr alike.1]
  rw [round_eq, VisibilityPlan.apply_controls (bound.once _), catalog, ← controls,
    map_presentBy_unshown named, quiet.plan_refresh bound, wanted]

theorem Quiet.keeps_refresh (bound : s.Bound) (quiet : s.Quiet) :
    ∀ b ∈ s.refresh.controls, b.losesValueBy s.wanted = false :=
  (keeps_congr (quiet.refresh bound).1.1 s.wanted).2 quiet.keeps

theorem Quiet.readings_round (bound : s.Bound) (quiet : s.Quiet) :
    s.round.1.controls.readings = s.controls.readings := by
  have kept := quiet.keeps_refresh bound
  rw [wanted, ← quiet.plan_refresh bound] at kept
  exact ((VisibilityPlan.readings_apply (bound.once _)).2 kept).trans (quiet.refresh bound).1.1

theorem wanted_congr {s t : Session} (tree : t.tree = s.tree)
    (h : t.controls.readings = s.controls.readings) : t.wanted = s.wanted := by
  rw [wanted, wanted, tree, FormTree.plan_congr h]

/-- After a quiet round comes another quiet one. -/
theorem Quiet.next (bound : s.Bound) (quiet : s.Quiet) : s.round.1.Quiet := by
  have readings := quiet.readings_round bound
  have alike : Refresh.Alike ⟨s.controls, s.catalog, false⟩
      ⟨s.round.1.controls, s.round.1.catalog, false⟩ :=
    ⟨readings, (quiet.refresh bound).1.2⟩
  have wanted : s.round.1.wanted = s.wanted := wanted_congr rfl readings
  refine ⟨fun e he => ?_, ?_⟩
  · exact (alike.loses_eq e).trans (quiet.respects e he)
  · rw [wanted]
    exact (keeps_congr readings s.wanted).2 quiet.keeps

theorem unshown_map_presentBy {fields : List (String × Bool)} {controls : ControlSet}
    (kept : ∀ b ∈ controls, b.losesValueBy fields = false) :
    ControlSet.unshown (controls.map (BoundControl.presentBy fields)) = controls.unshown := by
  rw [ControlSet.unshown, ControlSet.unshown, List.map_map]
  refine List.map_congr_left fun b hb => ?_
  have kept := kept b hb
  cases found : Table.get? b.id fields with
  | none => rw [Function.comp, BoundControl.presentBy_of_none found]
  | some visible =>
    rw [BoundControl.losesValueBy_of_some found] at kept
    simp only [Function.comp, BoundControl.presentBy_of_some found, Control.unshown_present kept]

/-- After a quiet round the controls are the marked ones, apart from whether they are shown. -/
theorem Quiet.unshown_round (bound : s.Bound) (quiet : s.Quiet) :
    s.round.1.controls.unshown = s.marked.1 := by
  rw [round_eq, VisibilityPlan.apply_controls (bound.once _), ← (quiet.refresh bound).2.1]
  refine unshown_map_presentBy ?_
  rw [quiet.plan_refresh bound]
  exact quiet.keeps_refresh bound

/-- The marks set in the round after a quiet one are there already. -/
theorem Quiet.marked_round (bound : s.Bound) (quiet : s.Quiet) : s.round.1.marked = s.marked := by
  obtain ⟨-, -, catalog⟩ := quiet.refresh bound
  have offers : s.round.1.catalog.offers = s.marked.2 := congrArg Catalog.offers catalog
  have again : s.round.1.marked =
      s.dependencies.foldl (Dependency.mark s.config s.round.1.controls)
        (s.round.1.controls.unshown, s.round.1.catalog.offers) := rfl
  rw [again, quiet.unshown_round bound, offers, Dependency.mark_congr (quiet.readings_round bound)]
  exact Dependency.foldl_foldl_of_overwriting Dependency.mark_again Dependency.mark_mark _ _

/-- A quiet round leads to a fixed point. -/
theorem Quiet.round_round (bound : s.Bound) (quiet : s.Quiet) : s.round.1.round.1 = s.round.1 := by
  have readings := quiet.readings_round bound
  have wanted : s.round.1.wanted = s.wanted := wanted_congr rfl readings
  have plan : s.round.1.tree.plan s.round.1.controls = s.tree.plan s.controls :=
    FormTree.plan_congr readings s.tree
  rw [(quiet.next bound).round bound.round, quiet.marked_round bound, wanted, plan,
    quiet.round bound]

/-- A round that leaves the readings as they are is quiet. -/
theorem Bound.quiet_of_readings (bound : s.Bound)
    (h : s.round.1.controls.readings = s.controls.readings) : s.Quiet := by
  have first := (refresh_fades bound.distinct).wanes.readings_eq_of_between s.presented_fades.wanes h
  have kept := (VisibilityPlan.readings_apply (bound.once s.refresh.controls)).1 (h.trans first.symm)
  rw [FormTree.plan_congr first] at kept
  exact ⟨Refresh.respects_of_readings_eq bound.distinct first, (keeps_congr first s.wanted).1 kept⟩

/-- A round that reports no change is quiet. -/
theorem Bound.quiet_of_unreported (bound : s.Bound) (h : s.round.2 = false) : s.Quiet := by
  obtain ⟨unchanged, unreported⟩ := round_unreported h
  have respects := (Refresh.respects_of_unchanged bound.distinct unchanged).2
  have first := (Refresh.foldl_follow_of_respects bound.distinct respects).1.1
  have distinct : s.refresh.controls.ids.Nodup := by
    rw [ids_refresh]
    exact bound.distinct
  have kept := VisibilityPlan.keeps_of_unreported (bound.once _) distinct unreported
  have plan : s.tree.plan s.refresh.controls = s.tree.plan s.controls :=
    FormTree.plan_congr first s.tree
  rw [plan] at kept
  exact ⟨respects, (keeps_congr first s.wanted).1 kept⟩

theorem settleWithin_of_fixed {fuel : Nat} (fixed : s.round.1 = s) : settleWithin fuel s = s := by
  induction fuel with
  | zero => rfl
  | succ fuel ih =>
    simp only [settleWithin, fixed, ih, ite_self]

/-- As many rounds as there are filled controls, and one more, lead to a fixed point. -/
theorem Bound.round_settleWithin (bound : s.Bound) {fuel : Nat} (h : s.controls.filledCount < fuel) :
    (settleWithin fuel s).round.1 = settleWithin fuel s := by
  induction fuel generalizing s with
  | zero => exact absurd h (Nat.not_lt_zero _)
  | succ fuel ih =>
    rw [settleWithin]
    cases reported : s.round.2 with
    | false => exact (bound.quiet_of_unreported reported).round_round bound
    | true =>
      rcases (round_fades bound.distinct).wanes.readings_eq_or_lt with same | less
      · have fixed := (bound.quiet_of_readings same).round_round bound
        simp only [if_true, settleWithin_of_fixed fixed, fixed]
      · exact ih bound.round (by omega)

/-- Settling reaches a fixed point within the rounds it is given. -/
theorem Bound.round_settle (bound : s.Bound) : s.settle.round.1 = s.settle := by
  have enough := s.controls.filledCount_le_length
  exact bound.round_settleWithin (by omega)

/-- What every round keeps is kept by settling. -/
theorem settleWithin_induction {P : Session → Prop} (step : ∀ t, P t → P t.round.1) (h : P s)
    (fuel : Nat) : P (settleWithin fuel s) := by
  induction fuel generalizing s with
  | zero => exact h
  | succ fuel ih =>
    rw [settleWithin]
    split
    · exact ih (step s h)
    · exact step s h

theorem settle_induction {P : Session → Prop} (step : ∀ t, P t → P t.round.1) (h : P s) :
    P s.settle :=
  settleWithin_induction step h _

/-- Settling only makes controls fade. -/
theorem Bound.settle_fades (bound : s.Bound) : s.controls.Fades s.settle.controls := by
  have kept : s.settle.Bound ∧ s.controls.Fades s.settle.controls := by
    refine settle_induction (P := fun t => t.Bound ∧ s.controls.Fades t.controls) ?_
      ⟨bound, .refl s.controls⟩
    rintro t ⟨bound, fades⟩
    exact ⟨bound.round, fades.trans (round_fades bound.distinct)⟩
  exact kept.2

/-- A form of which a round takes no value keeps all of them. -/
theorem Quiet.readings_settle (bound : s.Bound) (quiet : s.Quiet) :
    s.settle.controls.readings = s.controls.readings := by
  have kept : (s.settle.Bound ∧ s.settle.Quiet) ∧
      s.settle.controls.readings = s.controls.readings := by
    refine settle_induction (P := fun t => (t.Bound ∧ t.Quiet) ∧
      t.controls.readings = s.controls.readings) ?_ ⟨⟨bound, quiet⟩, rfl⟩
    rintro t ⟨⟨bound, quiet⟩, same⟩
    exact ⟨⟨bound.round, quiet.next bound⟩, (quiet.readings_round bound).trans same⟩
  exact kept.2

end Formwork.Session
