import Formwork.Proofs.Coherence
import Formwork.Proofs.Settling

/-!
# What is reported of a change

A view that goes by what is reported stays in step with the form, but for the control that it changes itself:
of that one no value is ever reported, and the form may have put it into the spelling of a choice or emptied
it all the same.
-/
namespace Formwork

theorem Binary64.same_comm (a b : Binary64) : a.same b = b.same a := by
  by_cases units : a.units = b.units
  · simp only [same, units, eq_comm (a := b.negative)]
  · simp [same, units, Ne.symm units]

theorem Number.same_comm : ∀ a b : Number, a.same b = b.same a
  | .int _, .int _ => Bool.beq_comm
  | .int _, .float _ => rfl
  | .float _, .int _ => rfl
  | .float a, .float b => Binary64.same_comm a b

namespace Json

mutual

theorem same_comm : ∀ v w : Json, v.same w = w.same v
  | .null, w => by cases w <;> rfl
  | .bool a, w => by cases w <;> simp [same, Bool.beq_comm]
  | .num a, w => by
    cases w with
    | num b => exact Number.same_comm a b
    | _ => rfl
  | .str a, w => by cases w <;> simp [same, Bool.beq_comm]
  | .arr items, w => by
    cases w with
    | arr items' => exact sameItems_comm items items'
    | _ => rfl
  | .obj members, w => by
    cases w with
    | obj members' => exact sameMembers_comm members members'
    | _ => rfl

theorem sameItems_comm : ∀ items items' : List Json, sameItems items items' = sameItems items' items
  | [], items' => by cases items' <;> rfl
  | v :: items, [] => rfl
  | v :: items, w :: items' => by
    rw [sameItems, sameItems, same_comm v w, sameItems_comm items items']

theorem sameMembers_comm : ∀ members members' : List (String × Json),
    sameMembers members members' = sameMembers members' members
  | [], members' => by cases members' <;> rfl
  | e :: members, [] => rfl
  | (k, v) :: members, (l, w) :: members' => by
    rw [sameMembers, sameMembers, same_comm v w, sameMembers_comm members members', Bool.beq_comm]

end

theorem eq_of_beq_emptied {v w : Json} (same : (v == w.emptied) = true) : v = w.emptied := by
  cases w with
  | arr items =>
    cases v with
    | arr items' =>
      cases items' with
      | nil => rfl
      | cons v items' => cases same
    | _ => cases same
  | _ =>
    cases v with
    | null => rfl
    | _ => cases same

end Json

namespace ChangeSet

variable {requested : Option String} {before after : Appearance} {b : BoundControl} {x : ControlChange}

theorem controlId_of_ofControl? {controls : ControlSet} (h : ofControl? requested controls b = some x) :
    x.controlId = b.id := by
  simp only [ofControl?, Option.ite_none_right_eq_some, Option.some.injEq] at h
  obtain ⟨-, rfl⟩ := h
  rfl

/-- What is reported of a control. -/
theorem control?_between (distinct : after.controls.ids.Nodup) (hb : b ∈ after.controls) :
    (between requested before after).control? b.id = ofControl? requested before.controls b := by
  unfold between control?
  dsimp only
  generalize after.controls = controls at distinct hb
  induction controls with
  | nil => cases hb
  | cons first controls ih =>
    obtain ⟨unused, distinct⟩ := List.nodup_cons.1 distinct
    rw [List.filterMap_cons]
    rcases List.mem_cons.1 hb with rfl | hb
    · cases reported : ofControl? requested before.controls b with
      | some x => simp [controlId_of_ofControl? reported]
      | none =>
        dsimp only
        rw [List.find?_eq_none]
        intro x hx
        obtain ⟨c, hc, told⟩ := List.mem_filterMap.1 hx
        rw [controlId_of_ofControl? told]
        simp only [decide_eq_true_eq]
        exact fun same => unused (List.mem_map.2 ⟨c, hc, same⟩)
    · have other : first.id ≠ b.id := fun same => unused (List.mem_map.2 ⟨b, hb, same.symm⟩)
      cases reported : ofControl? requested before.controls first with
      | some x =>
        rw [List.find?_cons_of_neg]
        · exact ih distinct hb
        · simp [controlId_of_ofControl? reported, other]
      | none => exact ih distinct hb

variable {c : Control}

/-- What is reported of a control that was there before. -/
theorem ofControl?_of_get? (found : before.controls.get? b.id = some c) :
    ofControl? requested before.controls b =
      if (requested ≠ some b.id && !(c.value == b.state.value)) ||
          (c.visible ≠ b.state.visible || c.disabled ≠ b.state.disabled) then
        some ⟨b.id, b.state.visible, b.state.enabled,
          requested ≠ some b.id && !(c.value == b.state.value)⟩
      else none := by
  rw [ofControl?, found]

/-- A control that did not ask for it has the value that it had, unless another one is reported. -/
theorem beq_of_unreported (found : before.controls.get? b.id = some c) (other : requested ≠ some b.id)
    (quiet : (ofControl? requested before.controls b).any (·.valueChanged) = false) :
    (c.value == b.state.value) = true := by
  rw [ofControl?_of_get? found] at quiet
  cases equal : c.value == b.state.value with
  | true => rfl
  | false => simp [other, equal] at quiet

/-- No value is ever reported of the control that asked for one. -/
theorem any_valueChanged_of_requested (asked : requested = some b.id) :
    (ofControl? requested before.controls b).any (·.valueChanged) = false := by
  cases found : before.controls.get? b.id with
  | none => simp [ofControl?, found]
  | some c =>
    rw [ofControl?_of_get? found]
    split <;> simp [asked]

/-- A control of which nothing is reported is as it was, in view or not and enabled or not. -/
theorem state_eq_of_unreported (found : before.controls.get? b.id = some c)
    (quiet : ofControl? requested before.controls b = none) :
    b.state.visible = c.visible ∧ b.state.disabled = c.disabled := by
  rw [ofControl?_of_get? found] at quiet
  simp only [ite_eq_right_iff, reduceCtorEq, imp_false, Bool.not_eq_true, Bool.or_eq_false_iff,
    decide_eq_false_iff_not, not_not] at quiet
  exact ⟨quiet.2.1.symm, quiet.2.2.symm⟩

/-- A group of which nothing is reported is as it was, if it was there and still is. -/
theorem group_eq_of_unreported {key : String} {visible : Bool}
    (now : Table.get? key after.groups = some visible)
    (quiet : (between requested before after).group? key = none) :
    Table.get? key before.groups = some visible := by
  by_contra changed
  have reported : (⟨key, visible⟩ : GroupChange) ∈ (between requested before after).groups := by
    refine List.mem_filterMap.2 ⟨(key, visible), Table.mem_of_get? now, ?_⟩
    exact if_neg changed
  have silent := List.find?_eq_none.1 quiet _ reported
  simp at silent

end ChangeSet

namespace Catalog

variable {c : Catalog} {id : String} {v w : Json}

/-- A value that is spelled and settled and then equals what it was is what it was. -/
theorem eq_of_spelling_wanes (wanes : (c.spelling id v).Wanes w) (same : (v == w) = true) : w = v := by
  rcases wanes with rfl | ⟨-, rfl⟩
  · unfold spelling at same ⊢
    cases offered : c.offer? id with
    | none => rfl
    | some o =>
      rw [offered] at same
      dsimp only at same ⊢
      split
      · rfl
      · rename_i respelled
        rw [if_neg respelled] at same
        exact absurd ((Json.same_comm _ _).trans same) respelled
  · exact (Json.eq_of_beq_emptied same).symm

end Catalog

theorem ControlSet.value?_map {f : BoundControl → BoundControl} {controls : ControlSet} {id : String}
    (ids : ∀ b, (f b).id = b.id)
    (keeps : ∀ b ∈ controls, b.id = id → (f b).state.value = b.state.value) :
    ControlSet.value? id (controls.map f) = controls.value? id := by
  unfold value?
  induction controls with
  | nil => rfl
  | cons b controls ih =>
    obtain ⟨first, keeps⟩ := List.forall_mem_cons.1 keeps
    rw [List.map_cons, get?_cons, get?_cons, ids]
    by_cases here : b.id = id
    · rw [if_pos here, if_pos here, Option.map_some, Option.map_some, first here]
    · rw [if_neg here, if_neg here, ih keeps]

namespace Session

variable {s t : Session} {id : String} {v : Json} {changes : ChangeSet}

/-- Nothing empties the control: it depends on no other, and nothing takes it out of view. -/
structure Sheltered (s : Session) (id : String) : Prop where
  free : ∀ e ∈ s.dependencies, id ≠ e.child
  shown : ∀ p ∈ s.tree.placements, p.field.controlId = id →
    p.field.conditions = [] ∧ ∀ g ∈ p.around, g.templateEnabled = true ∧ g.conditions = []

theorem Sheltered.isShown (h : s.Sheltered id) (controls : ControlSet) {p : Placement}
    (hp : p ∈ s.tree.placements) (named : p.field.controlId = id) : p.isShown controls = true := by
  obtain ⟨own, around⟩ := h.shown p hp named
  have allowed : ∀ g ∈ p.around, g.allows controls = true := by
    intro g hg
    obtain ⟨enabled, none⟩ := around g hg
    rw [Group.allows, enabled, none]
    rfl
  rw [Placement.isShown, own, List.all_eq_true.2 allowed]
  rfl

theorem Sheltered.value?_round (h : s.Sheltered id) (bound : s.Bound) :
    s.round.1.controls.value? id = s.controls.value? id := by
  have once (controls : ControlSet) : ((s.tree.plan controls).fields.map (·.1)).Nodup := by
    rw [FormTree.map_fst_plan_fields, ← bound.ids]
    exact bound.distinct
  have followed : s.refresh.controls.value? id = s.controls.value? id :=
    congrArg (Option.map Control.value) (Refresh.get?_foldl_follow_of_ne h.free)
  rw [round_eq, ← followed]
  dsimp only
  rw [VisibilityPlan.apply_controls (once _)]
  refine ControlSet.value?_map (fun b => (b.presentBy_fades _).1) fun b _ named => ?_
  cases entry : Table.get? b.id (s.tree.plan s.refresh.controls).fields with
  | none => rw [BoundControl.presentBy_of_none entry]
  | some visible =>
    have planned := Table.mem_of_get? entry
    rw [FormTree.plan_fields] at planned
    obtain ⟨p, hp, same⟩ := List.mem_map.1 planned
    obtain ⟨here, rfl⟩ := Prod.mk.inj same
    rw [BoundControl.presentBy_of_some entry, h.isShown _ hp (here.trans named)]
    simp [Control.present_value, Control.losesValue]

/-- Settling leaves the value of such a control alone. -/
theorem Sheltered.value?_settle (h : s.Sheltered id) (bound : s.Bound) :
    s.settle.controls.value? id = s.controls.value? id := by
  have kept : (s.settle.Bound ∧ s.settle.Sheltered id) ∧
      s.settle.controls.value? id = s.controls.value? id := by
    refine settle_induction (P := fun t => (t.Bound ∧ t.Sheltered id) ∧
      t.controls.value? id = s.controls.value? id) ?_ ⟨⟨bound, h⟩, rfl⟩
    rintro t ⟨⟨bound, sheltered⟩, same⟩
    exact ⟨⟨bound.round, sheltered.free, sheltered.shown⟩, (sheltered.value?_round bound).trans same⟩
  exact kept.2

/-- A value that is spelled and settled is in the spelling of its choices, unless it is emptied. -/
theorem Founded.exists_value_spelled (h : s.Founded) (found : s.controls.value? id = some v) :
    ∃ w, s.reconcile.settle.controls.value? id = some w ∧ (s.catalog.spelling id v).Wanes w := by
  have spelled : s.reconcile.controls.value? id = some (s.catalog.spelling id v) := by
    rw [Session.reconcile, Catalog.value?_reconcile, found, Option.map_some]
  exact h.reconcile.bound.settle_fades.wanes.exists_value spelled

/-- Of two forms with the same tree, either both have a control or neither does. -/
theorem Standing.both_or_neither (hs : s.Standing) (ht : t.Standing) (tree : t.tree = s.tree)
    (id : String) :
    s.controls.get? id = none ∧ t.controls.get? id = none ∨
      ∃ b ∈ t.controls, ∃ c, b.id = id ∧ s.controls.get? id = some c ∧
        t.controls.get? id = some b.state := by
  have ids : t.controls.ids = s.controls.ids := by rw [hs.bound.ids, ht.bound.ids, tree]
  have same : (t.controls.get? id).isSome ↔ (s.controls.get? id).isSome := by
    rw [ControlSet.isSome_get?_iff, ControlSet.isSome_get?_iff, ids]
  cases now : t.controls.get? id with
  | none =>
    refine .inl ⟨?_, rfl⟩
    rwa [now, Option.isSome_none, Bool.false_eq_true, false_iff, Option.not_isSome_iff_eq_none] at same
  | some d =>
    obtain ⟨c, before⟩ := Option.isSome_iff_exists.1 (same.1 (by rw [now]; rfl))
    obtain ⟨b, found, rfl⟩ := Option.map_eq_some_iff.1 now
    exact .inr ⟨b, List.mem_of_find?_eq_some found, c, by simpa using List.find?_some found, before, rfl⟩

section Reported

variable (hs : s.Standing) (ht : t.Standing) (tree : t.tree = s.tree) {requested : Option String}

include hs ht tree

/-- A control that did not ask for it has a value equal to the one that it had, unless another one is
reported. -/
theorem Standing.beq_of_unreported (other : requested ≠ some id)
    (quiet : ((ChangeSet.between requested s.appearance t.appearance).control? id).any (·.valueChanged) =
      false) :
    s.controls.get? id = none ∧ t.controls.get? id = none ∨
      ∃ c d, s.controls.get? id = some c ∧ t.controls.get? id = some d ∧ (c.value == d.value) = true := by
  rcases hs.both_or_neither ht tree id with neither | ⟨b, hb, c, rfl, before, now⟩
  · exact .inl neither
  · rw [ChangeSet.control?_between ht.bound.distinct hb] at quiet
    exact .inr ⟨c, b.state, before, now, ChangeSet.beq_of_unreported before other quiet⟩

theorem Standing.any_valueChanged_of_requested (asked : requested = some id)
    (there : id ∈ s.controls.ids) :
    ((ChangeSet.between requested s.appearance t.appearance).control? id).any (·.valueChanged) = false := by
  rcases hs.both_or_neither ht tree id with ⟨before, -⟩ | ⟨b, hb, -, rfl, -, -⟩
  · have absent := ControlSet.isSome_get?_iff.2 there
    rw [before] at absent
    cases absent
  · rw [ChangeSet.control?_between ht.bound.distinct hb]
    exact ChangeSet.any_valueChanged_of_requested asked

/-- A control of which nothing is reported is as it was, in view or not and enabled or not. -/
theorem Standing.shown_eq_of_unreported
    (quiet : (ChangeSet.between requested s.appearance t.appearance).control? id = none) :
    (t.controls.get? id).map (fun c => (c.visible, c.enabled)) =
      (s.controls.get? id).map fun c => (c.visible, c.enabled) := by
  rcases hs.both_or_neither ht tree id with ⟨before, now⟩ | ⟨b, hb, c, rfl, before, now⟩
  · rw [before, now]
  · rw [ChangeSet.control?_between ht.bound.distinct hb] at quiet
    obtain ⟨visible, disabled⟩ := ChangeSet.state_eq_of_unreported before quiet
    rw [before, now, Option.map_some, Option.map_some, visible, Control.enabled, Control.enabled,
      disabled]

/-- A group of which nothing is reported is in view if it was. -/
theorem Standing.group_eq_of_unreported {key : String}
    (quiet : (ChangeSet.between requested s.appearance t.appearance).group? key = none) :
    Table.get? key t.groups = Table.get? key s.groups := by
  cases now : Table.get? key t.groups with
  | some visible => exact (ChangeSet.group_eq_of_unreported now quiet).symm
  | none =>
    rw [Table.get?_eq_none_iff, ht.groups_perm.mem_iff, tree, ← hs.groups_perm.mem_iff,
      ← Table.get?_eq_none_iff] at now
    exact now.symm

end Reported

/-- Once a control is given a value, every other one has the value that it had unless another one is
reported. Of the control itself none is reported, though the value may be put into the spelling of a choice or
be emptied, unless nothing empties the control. Controls and groups that are not reported are as they were,
in view or not and enabled or not. -/
theorem setValue_reports (h : Reachable s) (done : s.setValue id v = .ok (changes, t)) :
    (∀ other, other ≠ id → (changes.control? other).any (·.valueChanged) = false →
      t.controls.value? other = s.controls.value? other) ∧
    (changes.control? id).any (·.valueChanged) = false ∧
    (∃ w, t.controls.value? id = some w ∧ (s.catalog.spelling id v).Wanes w ∧
      (s.Sheltered id → w = s.catalog.spelling id v)) ∧
    (∀ other, changes.control? other = none →
      (t.controls.get? other).map (fun c => (c.visible, c.enabled)) =
        (s.controls.get? other).map fun c => (c.visible, c.enabled)) ∧
    ∀ key, changes.group? key = none → Table.get? key t.groups = Table.get? key s.groups := by
  obtain ⟨controls, set, rfl, after⟩ := setValue_eq_ok_iff.1 done
  have founded : { s with controls }.Founded :=
    h.standing.toFounded.replace (ControlSet.cast_set? set) s.catalog s.selections
  have standing : t.Standing := after ▸ founded.reconcile.settle
  have tree : t.tree = s.tree := by rw [after, tree_settle]; rfl
  obtain ⟨there, rfl⟩ := ControlSet.set?_eq_some_iff.1 set
  have given := ControlSet.value?_modify_set there v
  refine ⟨fun other elsewhere quiet => ?_, h.standing.any_valueChanged_of_requested standing tree rfl there,
    ?_, fun other => h.standing.shown_eq_of_unreported standing tree,
    fun key => h.standing.group_eq_of_unreported standing tree⟩
  · have unasked : some id ≠ some other := fun same => elsewhere (Option.some.inj same).symm
    rcases h.standing.beq_of_unreported standing tree unasked quiet with
      ⟨before, now⟩ | ⟨c, d, before, now, same⟩
    · rw [ControlSet.value?, ControlSet.value?, before, now]
    · have kept : ControlSet.value? other (s.controls.modify id (Control.set v)) = some c.value := by
        rw [ControlSet.value?, ControlSet.get?_modify_of_ne elsewhere, before, Option.map_some]
      obtain ⟨w, value, wanes⟩ := founded.exists_value_spelled kept
      rw [← after, ControlSet.value?_of_get? now] at value
      obtain rfl := Option.some.inj value
      rw [ControlSet.value?_of_get? now, ControlSet.value?_of_get? before,
        Catalog.eq_of_spelling_wanes wanes same]
  · obtain ⟨w, value, wanes⟩ := founded.exists_value_spelled given
    rw [← after] at value
    refine ⟨w, value, wanes, fun sheltered => ?_⟩
    have alike : { s with
        controls := s.controls.modify id (Control.set v) }.reconcile.Sheltered id :=
      ⟨sheltered.free, sheltered.shown⟩
    rw [after, alike.value?_settle founded.reconcile.bound, Session.reconcile,
      Catalog.value?_reconcile, given, Option.map_some] at value
    exact (Option.some.inj value).symm

/-- An order with a size out of a list, and a town out of those of a country that is not given yet. -/
def order : Session :=
  .start "" { dependentRules := [⟨"town", "country", "countryId"⟩] }
    ⟨none, [⟨"Order", none, none, none,
      [{ choiceOf "size" .null with dataSource := none, options := some [.str "3", .str "4"] },
        choiceOf "country" .null, choiceOf "town" .null], [], [],
      ⟨.always, none, .null⟩, true, none, []⟩], [], []⟩

theorem reachable_order : order.Reachable := .start ..

/-- A size in the spelling of its choice is left as it is given. -/
theorem setValue_reports_order :
    order.Reachable ∧ ∃ changes t, order.setValue "size" (.str "4") = .ok (changes, t) ∧
      ((changes.control? "town").any (·.valueChanged) = false →
        t.controls.value? "town" = order.controls.value? "town") ∧
      ∃ w, t.controls.value? "size" = some w ∧ (order.catalog.spelling "size" (.str "4")).Wanes w := by
  obtain ⟨changes, t, done⟩ : ∃ changes t, order.setValue "size" (.str "4") = .ok (changes, t) :=
    ⟨_, _, rfl⟩
  obtain ⟨others, -, ⟨w, value, wanes, -⟩, -⟩ := setValue_reports reachable_order done
  exact ⟨reachable_order, changes, t, done, others "town" (by decide), w, value, wanes⟩

/-- Nothing is reported of a size that is put into the spelling of its choice, nor of a town that is lost
because there is no country. -/
theorem setValue_conceals_order :
    order.Reachable ∧
      (∃ changes t, order.setValue "size" (Json.ofNat 3) = .ok (changes, t) ∧
        changes.control? "size" = none ∧
          (t.controls.value? "size").map (Json.same (Json.ofNat 3)) = some false) ∧
      ∃ changes t, order.setValue "town" (.str "Rome") = .ok (changes, t) ∧
        changes.control? "town" = none ∧
          (t.controls.value? "town").map (Json.same (.str "Rome")) = some false := by
  refine ⟨reachable_order, ⟨_, _, rfl, ?_⟩, _, _, rfl, ?_⟩
  · decide +kernel
  · decide +kernel

end Session

end Formwork
