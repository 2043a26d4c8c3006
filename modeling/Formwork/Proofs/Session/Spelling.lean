import Formwork.Proofs.Session.Supply

/-!
# Values in the spelling of choices

A value that stands for a choice is brought into its spelling whenever values or choices change, and what is
in that spelling stays in it as the form settles. Where no choice is a list, one step is enough, so that in
every session that can be reached all values are in the spelling of the choices that there are.
-/
namespace Formwork

theorem Choice.exact_cases (choices : List Choice) (v : Json) :
    exact choices v = v ∨ ∃ c ∈ choices, exact choices v = c.value := by
  unfold exact
  cases found : choices.find? fun c => c.value.looselyEqual v with
  | none => exact .inl rfl
  | some c => exact .inr ⟨c, List.mem_of_find?_eq_some found, rfl⟩

theorem Json.emptied_cases (v : Json) : (∃ items, v = .arr items) ∨ v.emptied = .null := by
  cases v with
  | arr items => exact .inl ⟨items, rfl⟩
  | _ => exact .inr rfl

/-- Where no choice is a list, a value is in its last spelling after one step. -/
theorem Offer.exactValue_exactValue_of_flat {o : Offer}
    (flat : ∀ c ∈ o.all, ∀ items, c.value = .arr items → items = []) (v : Json) :
    o.exactValue (o.exactValue v) = o.exactValue v := by
  refine o.exactValue_exactValue v fun filled => ?_
  have alike := (o.alike_exactValue v).filled
  rcases o.exactValue_cases v with same | ⟨items, rfl, same⟩ | ⟨scalar, same⟩
  · rw [same]
  · rw [same]
    rfl
  · rw [scalar]
    rcases Json.emptied_cases (o.exactValue v) with ⟨items, list⟩ | none
    · rcases Choice.exact_cases o.all v with same' | ⟨c, hc, chosen⟩
      · rw [same, same'] at list
        rw [list] at scalar
        cases scalar
      · obtain rfl := flat c hc items (chosen.symm.trans (same.symm.trans list))
        rw [list, filled] at alike
        cases alike
    · exact none

namespace Catalog

variable {c d : Catalog}

def Flat (c : Catalog) : Prop :=
  ∀ id o, c.offer? id = some o → ∀ choice ∈ o.all, ∀ items, choice.value = .arr items → items = []

theorem Flat.of_shut (h : d.Flat) (shut : ∀ id, d.shut? id = c.shut? id) : c.Flat := by
  intro id o found
  obtain ⟨o', found', stock⟩ := exists_offer_of_shut (shut id).symm found
  have all : o'.all = o.all := congrArg Prod.fst stock
  rw [← all]
  exact h id o' found'

theorem Within.refl (c : Catalog) : c.Within c := fun _ o found _ => ⟨o, found, rfl⟩

theorem Within.of_shut_right {c' : Catalog} (h : d.Within c) (shut : ∀ id, c.shut? id = c'.shut? id) :
    d.Within c' := by
  intro id o found loaded
  obtain ⟨o', found', stock⟩ := h id o found loaded
  obtain ⟨o'', found'', stock'⟩ := exists_offer_of_shut (shut id) found'
  exact ⟨o'', found'', stock'.trans stock⟩

/-- Where no choice is a list, a control that is given the spelling of some choices is in that of a part of
them. -/
theorem spelled_reconciled_of_flat (within : d.Within c) {b : BoundControl}
    (flat : ∀ o, d.offer? b.id = some o → ∀ c ∈ o.all, ∀ items, c.value = .arr items → items = []) :
    d.Spelled (c.reconciled b) := by
  intro o found
  rw [(c.names_reconciled b).1] at found
  cases loaded : o.loaded with
  | false => simp [Offer.exactValue, loaded]
  | true =>
    obtain ⟨o', found', stock⟩ := within b.id o found loaded
    have alike (v : Json) : o'.exactValue v = o.exactValue v := Offer.exactValue_congr v stock
    rcases c.reconciled_cases b with ⟨spelled, same⟩ | ⟨o'', found'', given⟩
    · rw [same, ← alike]
      exact spelled o' found'
    · obtain rfl := Option.some.inj (found'.symm.trans found'')
      rw [given]
      dsimp only [Control.set]
      rw [alike, o.exactValue_exactValue_of_flat (flat o found)]
      exact Json.beq_self _

end Catalog

/-- What holds of every control, and of every one that is set to null, holds after a selection is taken
back. -/
theorem Lookup.forall_clear? {P : BoundControl → Prop}
    (keeps : ∀ b, P b → P { b with state := b.state.set .null }) {l : Lookup} {field : PlacedField}
    {s t : ControlSet} (h : l.clear? field s = some t) (each : ∀ b ∈ s, P b) : ∀ b ∈ t, P b := by
  have modified : ∀ (id : String) (u : ControlSet), (∀ b ∈ u, P b) →
      ∀ b ∈ u.modify id (Control.set .null), P b := by
    intro id u each b hb
    obtain ⟨c, hc, rfl⟩ := List.mem_map.1 hb
    split
    · exact keeps c (each c hc)
    · exact each c hc
  obtain ⟨u, set, rfl⟩ := Option.map_eq_some_iff.1 h
  obtain ⟨-, rfl⟩ := ControlSet.set?_eq_some_iff.1 set
  unfold Lookup.fillFrom
  have each' := modified field.controlId s each
  revert each'
  generalize s.modify field.controlId (Control.set .null) = u
  generalize l.fill = pairs
  intro each
  induction pairs generalizing u with
  | nil => exact each
  | cons pair pairs ih =>
    rw [List.foldl_cons]
    refine ih _ ?_
    split
    · exact modified _ u each
    · exact each

namespace Session

variable {s t : Session}

structure SameOffers (s t : Session) : Prop where
  config : t.config = s.config
  tree : t.tree = s.tree
  shut : ∀ id, t.catalog.shut? id = s.catalog.shut? id

/-- What an operation can do to values: the form is spelled and settled, or it is only settled after values
were emptied, or no value is changed. -/
inductive Respells (s t : Session) : Prop
  | spelled (u : Session) (founded : u.Founded) (after : t = u.reconcile.settle)
  | emptied (u : Session) (founded : u.Founded) (after : t = u.settle) (same : s.SameOffers u)
      (kept : ∀ c : Catalog, (∀ b ∈ s.controls, c.Spelled b) → ∀ b ∈ u.controls, c.Spelled b)
  | same (same : s.SameOffers t) (readings : t.controls.readings = s.controls.readings)

theorem respells_rebuild (before : Fields) (u : Session) : s.Respells (u.rebuild before) :=
  .spelled _ (founded_bind before u) rfl

theorem respells_run (standing : s.Standing) (operation : Operation) : s.Respells (s.run operation) := by
  have founded := standing.toFounded
  have effect := s.effect_run operation
  generalize s.run operation = t at effect ⊢
  cases effect with
  | refused => exact .same ⟨rfl, rfl, fun _ => rfl⟩ rfl
  | passTime => exact .same ⟨rfl, rfl, fun _ => rfl⟩ rfl
  | setOperator => exact respells_rebuild _ _
  | loadTemplate => exact respells_rebuild _ _
  | fetchTemplate => exact respells_rebuild _ _
  | loadDocument => exact respells_rebuild _ _
  | fetchDocument => exact respells_rebuild _ _
  | setStep => exact respells_rebuild _ _
  | setValue _ _ _ set =>
    exact .spelled _ (founded.replace (ControlSet.cast_set? set) s.catalog s.selections) rfl
  | touch => exact .same ⟨rfl, rfl, fun _ => rfl⟩ (ControlSet.readings_modify fun _ _ _ => rfl)
  | addInstance => exact respells_rebuild _ _
  | removeInstance => exact respells_rebuild _ _
  | askForChoices => exact .same ⟨rfl, rfl, fun _ => rfl⟩ rfl
  | missedChoices => exact .same ⟨rfl, rfl, fun _ => rfl⟩ rfl
  | receiveChoices => exact .spelled _ (founded.replace rfl _ s.selections) rfl
  | resolveChoices => exact .spelled _ (standing.askForChoices.replace rfl _ s.selections) rfl
  | select _ _ _ _ _ taken =>
    exact .spelled _ (founded.replace (Lookup.cast_select? taken) s.catalog _) rfl
  | deselect _ _ _ _ taken =>
    refine .emptied _ (founded.replace (Lookup.cast_clear? taken) s.catalog _) rfl
      ⟨rfl, rfl, fun _ => rfl⟩ fun c => ?_
    exact Lookup.forall_clear? (fun b _ => Catalog.spelled_of_emptied (v := .null) rfl) taken
  | commitSaved =>
    exact .same ⟨rfl, rfl, fun _ => rfl⟩ (readings_map_change (fun _ => aside_commit) s.controls)
  | save =>
    exact .same ⟨rfl, rfl, fun _ => rfl⟩ (readings_map_change (fun _ => aside_commit) s.controls)

theorem sameOffers_settle (s : Session) : s.SameOffers s.settle where
  config := by rw [settle_eq]
  tree := s.tree_settle
  shut := s.shut?_settle

theorem SameOffers.trans {u : Session} (h : s.SameOffers t) (h' : t.SameOffers u) : s.SameOffers u where
  config := h'.config.trans h.config
  tree := h'.tree.trans h.tree
  shut id := (h'.shut id).trans (h.shut id)

theorem spelled_congr {c : Catalog} {controls controls' : ControlSet}
    (readings : controls'.readings = controls.readings) (h : ∀ b ∈ controls, c.Spelled b) :
    ∀ b ∈ controls', c.Spelled b := by
  have told (u : ControlSet) : (∀ b ∈ u, c.Spelled b) ↔
      ∀ r ∈ u.readings, ∀ o, c.offer? r.1 = some o → (o.exactValue r.2.2 == r.2.2) = true := by
    rw [ControlSet.readings, List.forall_mem_map]
    rfl
  rw [told] at h ⊢
  rwa [readings]

/-- A form that was spelled and settled is in the spelling of choices among those that there are. -/
theorem Founded.spelled (h : s.Founded) {d : Catalog} (flat : d.Flat)
    (within : d.Within s.reconcile.settle.catalog) : ∀ b ∈ s.reconcile.settle.controls, d.Spelled b := by
  have within' : d.Within s.catalog := within.of_shut_right s.reconcile.shut?_settle
  have spelled : ∀ b ∈ s.reconcile.controls, d.Spelled b := by
    intro b hb
    obtain ⟨b, -, rfl⟩ := List.mem_map.1 hb
    exact Catalog.spelled_reconciled_of_flat within' (flat b.id)
  exact Catalog.spelled_of_fades spelled h.reconcile.bound.settle_fades

/-- Whatever an operation does, values are afterwards in the spelling of choices among those that there are,
if they were before where the choices are the same. -/
theorem Respells.spelled_of (h : s.Respells t) {c d : Catalog} (flat : d.Flat) (within : d.Within t.catalog)
    (same : s.SameOffers t → ∀ id, d.shut? id = c.shut? id)
    (before : c.Flat → ∀ b ∈ s.controls, c.Spelled b) : ∀ b ∈ t.controls, d.Spelled b := by
  have kept (offers : s.SameOffers t) : ∀ b ∈ s.controls, d.Spelled b := fun b hb =>
    (before (flat.of_shut (same offers)) b hb).of_shut (same offers)
  cases h with
  | spelled u founded after =>
    subst after
    exact founded.spelled flat within
  | emptied u founded after offers emptied =>
    subst after
    exact Catalog.spelled_of_fades (emptied d (kept (offers.trans u.sameOffers_settle)))
      founded.bound.settle_fades
  | same offers readings => exact spelled_congr readings (kept offers)

/-- Unless there is a list among the choices, all values are in their spelling. -/
theorem Reachable.spelled (h : Reachable s) (flat : s.catalog.Flat) :
    ∀ b ∈ s.controls, s.catalog.Spelled b := by
  induction h with
  | start now config template => exact (founded_bind _ _).spelled flat (.refl _)
  | run reachable operation ih =>
    exact (respells_run reachable.standing operation).spelled_of flat (.refl _)
      (fun offers => offers.shut) ih

end Session

end Formwork
