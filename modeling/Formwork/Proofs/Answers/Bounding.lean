import Formwork.Proofs.Answers.Taking
import Formwork.Proofs.Saving
import Formwork.Proofs.Visibility.Likeness

/-!
# Bounds of a course of rounds

A settled form bounds every course that starts above it. As long as no control on the way is emptied that is
filled in there, none will be: a dependency that took it would take it in the settled form as well, and so
would a condition, unless what is lost brings a field into view.
-/
namespace Formwork

/-- Where the second of two values is filled in, the first one is like it and counts no more. -/
def Json.Sees (v w : Json) : Prop :=
  w.isFilled = true → v.Alike w ∧ (v.isTruthy = true → w.isTruthy = true)

/-- What is lost to values and choices that are seen in others is lost to those as well. -/
theorem Dependent.losesValue_of_sees {link : String} {parent parent' v v' : Json}
    {offer offer' : Option Offer} (parents : parent.Sees parent') (values : v.Sees v')
    (offers : ∀ o, offer = some o → o.loaded = true → ∃ o', offer' = some o' ∧ o'.stock = o.stock)
    (filled : v'.isFilled = true) (lost : losesValue link parent offer v = true) :
    losesValue link parent' offer' v' = true := by
  unfold losesValue at lost ⊢
  rw [filled, Bool.true_and]
  cases present : parent'.isFilled with
  | false => rfl
  | true =>
    obtain ⟨alike, -⟩ := parents present
    rw [alike.filled, present, Bool.not_true, Bool.false_or, Bool.and_eq_true] at lost
    cases offer with
    | none => cases lost.2
    | some o =>
      obtain ⟨loaded, refused⟩ := Bool.and_eq_true_iff.1 lost.2
      obtain ⟨o', rfl, stock⟩ := offers o rfl loaded
      obtain ⟨all, loaded'⟩ := Prod.mk.inj stock
      rw [Option.any_some, loaded', loaded, all, ← alike.narrow, ← (values filled).1.allow, refused]
      rfl

/-- A control that is emptied by carrying out a plan is hidden by it, and its value counts. -/
theorem BoundControl.hidden_of_emptied {fields : List (String × Bool)} (b : BoundControl)
    (filled : b.state.value.isFilled = true)
    (emptied : (b.presentBy fields).state.value.isFilled = false) :
    Table.get? b.id fields = some false ∧ b.state.value.isTruthy = true := by
  have lost : b.losesValueBy fields = true := by
    by_contra kept
    have same := reading_presentBy.2 (by simpa using kept)
    have value : (b.presentBy fields).state.value = b.state.value := congrArg (·.2.2) same
    rw [value, filled] at emptied
    cases emptied
  cases entry : Table.get? b.id fields with
  | none =>
    rw [losesValueBy_of_none entry] at lost
    cases lost
  | some visible =>
    rw [losesValueBy_of_some entry, Control.losesValue, Bool.and_eq_true, Bool.not_eq_true'] at lost
    obtain ⟨rfl, counts⟩ := lost
    exact ⟨rfl, counts⟩

namespace Catalog

variable {c : Catalog} {b b' x : BoundControl}

/-- A control that fades stays above what was below it, unless it alone is emptied. -/
theorem Steady.fades_of_excused (h : c.Steady b) (fades : b.Fades b')
    (below : (c.reconciled b).Fades x)
    (excused : b.state.value.isFilled = true → b'.state.value.isFilled = false →
      x.state.value.isFilled = false) : (c.reconciled b').Fades x := by
  obtain ⟨id, rawKey, same | ⟨filled, emptied⟩⟩ := fades
  · have bare := bare_reconciled_congr (c := c) id same
    obtain ⟨same_id, same_raw⟩ := c.names_reconciled b
    obtain ⟨same_id', same_raw'⟩ := c.names_reconciled b'
    have back : (c.reconciled b').Fades (c.reconciled b) :=
      ⟨by rw [same_id, same_id', id], by rw [same_raw, same_raw', rawKey], .inl bare.symm⟩
    exact back.trans below
  · have value : b'.state.value = b.state.value.emptied := Control.value_eq_of_bare emptied
    rw [reconciled_of_spelled (spelled_of_emptied value)]
    obtain ⟨same_id, same_raw⟩ := c.names_reconciled b
    have empty := excused filled (value ▸ Json.isFilled_emptied _)
    refine ⟨below.1.trans (same_id.trans id.symm), below.2.1.trans (same_raw.trans rawKey.symm), ?_⟩
    rcases below.2.2 with kept | ⟨-, cleared⟩
    · rw [Control.value_eq_of_bare kept, ← (c.alike_reconciled b).filled, filled] at empty
      cases empty
    · exact .inl (cleared.trans ((h.bare_clear filled).trans emptied.symm))

/-- Controls that fade stay above what was below them, unless they alone are emptied. -/
theorem fades_reconcile_of_excused {controls later bound : ControlSet}
    (steady : ∀ b ∈ controls, c.Steady b) (fades : controls.Fades later)
    (below : (c.reconcile controls).Fades bound)
    (excused : ∀ b ∈ controls, ∀ b' ∈ later, ∀ x ∈ bound, b'.id = b.id → x.id = b.id →
      b.state.value.isFilled = true → b'.state.value.isFilled = false →
        x.state.value.isFilled = false) : (c.reconcile later).Fades bound := by
  induction fades generalizing bound with
  | nil => exact below
  | @cons b b' controls later first _ ih =>
    obtain ⟨x, rest, first', rest', rfl⟩ := List.forall₂_cons_left_iff.1 below
    refine .cons ?_ (ih (fun b hb => steady b (List.mem_cons_of_mem _ hb)) rest' ?_)
    · refine (steady b List.mem_cons_self).fades_of_excused first first' ?_
      exact excused b List.mem_cons_self b' List.mem_cons_self x List.mem_cons_self first.1
        (first'.1.trans (c.names_reconciled b).1)
    · intro b hb b' hb' x hx
      exact excused b (List.mem_cons_of_mem _ hb) b' (List.mem_cons_of_mem _ hb') x
        (List.mem_cons_of_mem _ hx)

/-- Where controls fade, so do they in their last spelling. -/
theorem reconcile_fades {controls later : ControlSet} (steady : ∀ b ∈ controls, c.Steady b)
    (fades : controls.Fades later) :
    (∀ b ∈ later, c.Steady b) ∧ (c.reconcile controls).Fades (c.reconcile later) := by
  induction fades with
  | nil => exact ⟨steady, .nil⟩
  | @cons b b' controls later first _ ih =>
    obtain ⟨steady', rest⟩ := ih fun b hb => steady b (List.mem_cons_of_mem _ hb)
    obtain ⟨steady₁, fades₁⟩ := (steady b List.mem_cons_self).fades first
    exact ⟨List.forall_mem_cons.2 ⟨steady₁, steady'⟩, .cons fades₁ rest⟩

end Catalog

namespace Session

variable {u g : Session} {controls : ControlSet} {catalog : Catalog}

/-- Whatever is lost on the way from the form to the settled one, no control whose value still counts comes
into view by it that would not have been in view before. -/
def Withers (u : Session) : Prop :=
  ∀ earlier later : ControlSet, u.controls.Wanes earlier → earlier.Wanes later →
    later.Wanes u.settle.controls → ∀ p ∈ u.tree.placements, ∀ v,
      later.value? p.field.controlId = some v → v.isTruthy = true →
        p.isShown later = true → p.isShown earlier = true

/-- A settled form below another one that has lost nothing that settling the other one keeps. -/
structure Bounds (u g : Session) : Prop where
  standing : g.Standing
  config : g.config = u.config
  tree : g.tree = u.tree
  dependencies : g.dependencies = u.dependencies
  within : u.catalog.Within g.catalog
  keeps : g.controls.Wanes u.settle.controls

structure Between (u g : Session) (controls : ControlSet) (catalog : Catalog) : Prop where
  within : catalog.Within u.catalog
  steady : ∀ b ∈ controls, u.catalog.Steady b
  above : u.controls.Fades (u.catalog.reconcile controls)
  below : (u.catalog.reconcile controls).Fades g.controls

theorem Between.ids (h : Between u g controls catalog) : controls.ids = g.controls.ids := by
  rw [(u.catalog.alike_reconcile controls).ids, h.below.wanes.ids]

theorem Between.distinct (h : Between u g controls catalog) (bounds : Bounds u g) :
    controls.ids.Nodup := by
  rw [h.ids]
  exact bounds.standing.bound.distinct

/-- The values are seen in those of the form that bounds them. -/
theorem Between.sees (h : Between u g controls catalog) (id : String) :
    (controls.value? id = none ∧ g.controls.value? id = none) ∨
      ∃ v w, controls.value? id = some v ∧ g.controls.value? id = some w ∧ v.Sees w := by
  cases found : controls.get? id with
  | none =>
    refine .inl ⟨ControlSet.value?_eq_none_iff.2 found, ControlSet.value?_eq_none_iff.2 ?_⟩
    rwa [ControlSet.get?_eq_none_iff, ← h.ids, ← ControlSet.get?_eq_none_iff]
  | some state =>
    have pairs := List.forall₂_map_left_iff.1 h.below
    obtain ⟨b, hb, x, -, fades, -, rfl, found'⟩ := ControlSet.exists_of_forall₂ pairs
      (fun b x fades => fades.1.trans (u.catalog.names_reconciled b).1) found
    refine .inr ⟨b.state.value, x.state.value, ControlSet.value?_of_get? found,
      ControlSet.value?_of_get? found', fun filled => ?_⟩
    rcases fades.2.2 with same | ⟨-, emptied⟩
    · rw [Control.value_eq_of_bare same]
      exact ⟨u.catalog.alike_reconciled b, (h.steady b hb).counts⟩
    · have value : x.state.value = (u.catalog.reconciled b).state.value.emptied :=
        Control.value_eq_of_bare emptied
      rw [value, Json.isFilled_emptied] at filled
      cases filled

theorem Between.parentValue_sees (h : Between u g controls catalog) (e : Dependency) :
    (e.parentValue controls).Sees (e.parentValue g.controls) := by
  rw [Dependency.parentValue, Dependency.parentValue]
  rcases h.sees e.parent with ⟨none, none'⟩ | ⟨v, w, found, found', sees⟩
  · rw [none, none']
    intro filled
    cases filled
  · rw [found, found']
    exact sees

/-- What happens to the controls on the way keeps them above the bound, if nothing is lost that is kept
there. -/
theorem Between.step (h : Between u g controls catalog) {later : ControlSet} {catalog' : Catalog}
    (fades : controls.Fades later) (shut : ∀ id, catalog'.shut? id = catalog.shut? id)
    (excused : ∀ id v w x, controls.value? id = some v → later.value? id = some w →
      g.controls.value? id = some x → v.isFilled = true → w.isFilled = false → x.isFilled = false)
    (bounds : Bounds u g) : Between u g later catalog' := by
  obtain ⟨steady, reconciled⟩ := Catalog.reconcile_fades h.steady fades
  refine ⟨h.within.of_shut shut, steady, h.above.trans reconciled, ?_⟩
  refine Catalog.fades_reconcile_of_excused h.steady fades h.below ?_
  have distinct := h.distinct bounds
  have distinct' : later.ids.Nodup := by rwa [fades.wanes.ids]
  intro b hb b' hb' x hx same same'
  refine excused b.id _ _ _ (ControlSet.value?_of_get? (ControlSet.get?_of_mem distinct hb)) ?_ ?_
  · rw [← same]
    exact ControlSet.value?_of_get? (ControlSet.get?_of_mem distinct' hb')
  · rw [← same']
    exact ControlSet.value?_of_get? (ControlSet.get?_of_mem bounds.standing.bound.distinct hx)

/-- A control that is emptied by following a dependency is the child that loses its value. -/
theorem loses_of_emptied {config : Config} {r : Refresh} (distinct : r.controls.ids.Nodup)
    {e : Dependency} {id : String} {v w : Json} (before : r.controls.value? id = some v)
    (after : (Refresh.follow config r e).controls.value? id = some w) (filled : v.isFilled = true)
    (emptied : w.isFilled = false) : id = e.child ∧ Refresh.loses config r e = true := by
  have changed : (Refresh.follow config r e).controls.value? id ≠ r.controls.value? id := by
    intro same
    rw [before, after] at same
    rw [Option.some.inj same, filled] at emptied
    cases emptied
  constructor
  · by_contra other
    exact changed (congrArg (Option.map Control.value) (Refresh.get?_follow_of_ne other))
  · by_contra kept
    have same := (Refresh.follow_of_not_loses distinct (by simpa using kept)).1.1
    exact changed (ControlSet.value?_congr same id)

/-- A child that loses its value above the bound is empty there. -/
theorem Between.empty_of_loses {r : Refresh} (h : Between u g r.controls r.catalog)
    (bounds : Bounds u g) {e : Dependency} (he : e ∈ u.dependencies)
    (lost : Refresh.loses u.config r e = true) {x : Json}
    (held : g.controls.value? e.child = some x) : x.isFilled = false := by
  rcases Refresh.follow_cases u.config r e with ⟨-, kept, -⟩ | ⟨rule, child, hrule, hchild⟩
  · rw [kept] at lost
    cases lost
  · by_contra filled
    obtain ⟨state, hstate, rfl⟩ := Option.map_eq_some_iff.1 held
    rw [Refresh.loses_of_some hrule hchild] at lost
    have kept := bounds.standing.quiet.respects e (bounds.dependencies ▸ he)
    rw [bounds.config, Refresh.loses_of_some hrule hstate] at kept
    have values : child.value.Sees state.value := by
      rcases h.sees e.child with ⟨none, -⟩ | ⟨v, w, found, found', sees⟩
      · rw [ControlSet.value?_of_get? hchild] at none
        cases none
      · rw [ControlSet.value?_of_get? hchild] at found
        rw [held] at found'
        obtain rfl := Option.some.inj found
        obtain rfl := Option.some.inj found'
        exact sees
    have lost' := Dependent.losesValue_of_sees (h.parentValue_sees e) values
      ((h.within.trans bounds.within) e.child) (by simpa using filled) lost
    exact absurd (lost'.symm.trans kept) (by simp)

/-- Following a dependency keeps the controls above the bound. -/
theorem Between.follow {r : Refresh} (h : Between u g r.controls r.catalog) (bounds : Bounds u g)
    {e : Dependency} (he : e ∈ u.dependencies) :
    Between u g (Refresh.follow u.config r e).controls (Refresh.follow u.config r e).catalog := by
  have distinct := h.distinct bounds
  obtain ⟨offers, catalog, -, shut, -⟩ := Refresh.catalog_follow u.config r e
  have shut' : ∀ id, (Refresh.follow u.config r e).catalog.shut? id = r.catalog.shut? id := by
    rw [catalog]
    exact shut
  refine h.step (Refresh.follow_fades distinct e) shut' ?_ bounds
  intro id v w x before after held filled emptied
  obtain ⟨rfl, lost⟩ := loses_of_emptied distinct before after filled emptied
  exact h.empty_of_loses bounds he lost held

theorem Between.followAll {r : Refresh} (h : Between u g r.controls r.catalog) (bounds : Bounds u g)
    {edges : List Dependency} (known : ∀ e ∈ edges, e ∈ u.dependencies) :
    Between u g (edges.foldl (Refresh.follow u.config) r).controls
      (edges.foldl (Refresh.follow u.config) r).catalog := by
  induction edges generalizing r with
  | nil => exact h
  | cons e edges ih =>
    obtain ⟨he, known⟩ := List.forall_mem_cons.1 known
    exact ih (h.follow bounds he) known

/-- A field that is out of view above the bound is empty there, if its value counts. -/
theorem Between.empty_of_hidden (h : Between u g controls catalog) (bounds : Bounds u g)
    (withers : u.Withers) {p : Placement} (hp : p ∈ u.tree.placements)
    (hidden : p.isShown controls = false) {v x : Json}
    (found : controls.value? p.field.controlId = some v) (counts : v.isTruthy = true)
    (held : g.controls.value? p.field.controlId = some x) : x.isFilled = false := by
  by_contra filled
  rw [Bool.not_eq_false] at filled
  have counts' : x.isTruthy = true := by
    rcases h.sees p.field.controlId with ⟨none, -⟩ | ⟨v', x', there, there', sees⟩
    · rw [found] at none
      cases none
    · obtain rfl := Option.some.inj (found.symm.trans there)
      obtain rfl := Option.some.inj (held.symm.trans there')
      exact (sees filled).2 counts
  cases shown : p.isShown g.controls with
  | false =>
    obtain ⟨c, keeps⟩ := bounds.standing.keeps (bounds.tree ▸ hp)
    rw [ControlSet.value?_of_get? keeps.found] at held
    obtain rfl := Option.some.inj held
    have clean := keeps.shows.clean
    rw [shown, Control.losesValue, counts'] at clean
    cases clean
  | true =>
    have shown' := withers _ _ h.above.wanes h.below.wanes bounds.keeps p hp x held counts' shown
    rw [← (u.catalog.alike_reconcile controls).isShown p, hidden] at shown'
    cases shown'

/-- A control that is emptied by carrying out the plan of a tree is hidden, and its value counts. -/
theorem hidden_of_emptied {tree : FormTree} (distinct : controls.ids.Nodup)
    (once : ((tree.plan controls).fields.map (·.1)).Nodup) {id : String} {v w : Json}
    (before : controls.value? id = some v)
    (after : ControlSet.value? id ((tree.plan controls).apply controls).1 = some w)
    (filled : v.isFilled = true) (emptied : w.isFilled = false) :
    ∃ p ∈ tree.placements, p.field.controlId = id ∧ p.isShown controls = false ∧
      v.isTruthy = true := by
  have fades : controls.Fades ((tree.plan controls).apply controls).1 :=
    VisibilityPlan.apply_fades _ _
  obtain ⟨state, found, rfl⟩ := Option.map_eq_some_iff.1 before
  obtain ⟨b, hb, -, -, -, rfl, rfl, -⟩ := ControlSet.exists_of_forall₂ fades (fun _ _ h => h.1) found
  have value : w = (b.presentBy (tree.plan controls).fields).state.value := by
    have there : b.presentBy (tree.plan controls).fields ∈ ((tree.plan controls).apply controls).1 := by
      rw [VisibilityPlan.apply_controls once]
      exact List.mem_map_of_mem hb
    have distinct' : ControlSet.ids ((tree.plan controls).apply controls).1 |>.Nodup := by
      rwa [fades.wanes.ids]
    have found' := ControlSet.get?_of_mem distinct' there
    rw [(b.presentBy_fades _).1] at found'
    rw [ControlSet.value?_of_get? found'] at after
    exact (Option.some.inj after).symm
  obtain ⟨hidden, counts⟩ := b.hidden_of_emptied filled (value ▸ emptied)
  have planned := Table.mem_of_get? hidden
  rw [FormTree.plan_fields] at planned
  obtain ⟨p, hp, same⟩ := List.mem_map.1 planned
  obtain ⟨id, unseen⟩ := Prod.mk.inj same
  exact ⟨p, hp, id, unseen, counts⟩

/-- Carrying out the plan keeps the controls above the bound. -/
theorem Between.present (h : Between u g controls catalog) (bounds : Bounds u g)
    (withers : u.Withers) : Between u g ((u.tree.plan controls).apply controls).1 catalog := by
  have distinct := h.distinct bounds
  have once : ((u.tree.plan controls).fields.map (·.1)).Nodup := by
    rw [← bounds.tree]
    exact bounds.standing.bound.once controls
  refine h.step (VisibilityPlan.apply_fades _ _) (fun _ => rfl) ?_ bounds
  intro id v w x before after held filled emptied
  obtain ⟨p, hp, rfl, hidden, counts⟩ := hidden_of_emptied distinct once before after filled emptied
  exact h.empty_of_hidden bounds withers hp hidden before counts held

structure Bounded (u g t : Session) : Prop where
  config : t.config = u.config
  tree : t.tree = u.tree
  dependencies : t.dependencies = u.dependencies
  between : Between u g t.controls t.catalog

theorem Bounded.round {t : Session} (h : Bounded u g t) (bounds : Bounds u g) (withers : u.Withers) :
    Bounded u g t.round.1 := by
  have followed : Between u g t.refresh.controls t.refresh.catalog := by
    rw [refresh, Refresh.followAll, h.config, h.dependencies]
    exact Between.followAll (r := ⟨t.controls, t.catalog, false⟩) h.between bounds fun _ he => he
  refine ⟨h.config, h.tree, h.dependencies, ?_⟩
  rw [round_eq, h.tree]
  exact followed.present bounds withers

theorem Bounded.settle {t : Session} (h : Bounded u g t) (bounds : Bounds u g)
    (withers : u.Withers) : Bounded u g t.settle :=
  settle_induction (fun _ h => h.round bounds withers) h

/-- Bringing values into the spelling of the choices that have arrived keeps the form above the bound. -/
theorem Bounded.reconcile {t : Session} (h : Bounded u g t) : Bounded u g t.reconcile := by
  have same : u.catalog.reconcile (t.catalog.reconcile t.controls) = u.catalog.reconcile t.controls := by
    unfold Catalog.reconcile
    rw [List.map_map]
    exact List.map_congr_left fun b hb =>
      (h.between.steady b hb).reconciled_reconciled h.between.within
  refine ⟨h.config, h.tree, h.dependencies, h.between.within, ?_, ?_, ?_⟩
  · intro b hb
    obtain ⟨before, hbefore, rfl⟩ := List.mem_map.1 hb
    exact (h.between.steady before hbefore).reconciled h.between.within
  · exact same ▸ h.between.above
  · exact same ▸ h.between.below

end Session

end Formwork
