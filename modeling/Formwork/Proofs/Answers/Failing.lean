import Formwork.Proofs.Choice.Respelling
import Formwork.Proofs.Dependents

/-!
# Answers that fail

A source that cannot be fetched counts as one without rows. Its controls have their choices then, none at
all, and a control that depends on another one loses its value to them as if they had arrived. Nothing else
is lost to a failure.
-/
namespace Formwork

/-- There is no choice among no rows. -/
theorem Offer.choicesOf_nil (config : Config) (source : String) (maxOptions : Option Nat) :
    choicesOf config source maxOptions [] = [] := by
  unfold choicesOf
  exact ite_self _

theorem Offer.fill_failed (config : Config) (source : String) (o : Offer) :
    o.fill config source Response.failed.answer =
      { o with all := [], available := [], loaded := true } := by
  rw [fill, Response.answer, choicesOf_nil]

/-- Where there is no choice, every value is in the spelling of the choices. -/
theorem Offer.exactValue_of_nil {o : Offer} (none : o.all = []) (v : Json) : o.exactValue v = v := by
  simp [exactValue, none]

namespace Session

variable {s : Session} {source : String}

/-- The form in which a source has failed, not settled yet. -/
def failing (source : String) (s : Session) : Session :=
  { s with catalog := s.catalog.take s.config source .failed }

theorem receiveChoices_failed (source : String) (s : Session) :
    (s.receiveChoices s.catalog.generation source .failed).2 =
      (s.failing source).reconcile.settle := by
  simp [receiveChoices, Catalog.receive?, reported, failing]

/-- What is offered once a source has failed. -/
theorem offer?_failing (id : String) :
    (s.failing source).catalog.offer? id = (s.catalog.offer? id).map fun o =>
      if o.source = some source then { o with all := [], available := [], loaded := true } else o := by
  rw [failing, Catalog.offer?_take]
  simp only [Offer.fill_failed]

/-- The controls with choices from the source have none once it has failed, and the others keep theirs. -/
theorem offer?_failing_cases {id : String} {o : Offer}
    (found : (s.failing source).catalog.offer? id = some o) :
    (∃ before, s.catalog.offer? id = some before ∧ before.source = some source ∧ o.all = [] ∧
        o.loaded = true) ∨
      s.catalog.offer? id = some o ∧ o.source ≠ some source := by
  rw [offer?_failing] at found
  obtain ⟨before, there, rfl⟩ := Option.map_eq_some_iff.1 found
  by_cases from_source : before.source = some source
  · exact .inl ⟨before, there, from_source, by simp [from_source]⟩
  · exact .inr ⟨by simp [there, from_source], by simp [from_source]⟩

/-- Every control whose choices come from elsewhere has its value in their spelling. -/
def SpelledBeside (s : Session) (source : String) : Prop :=
  ∀ b ∈ s.controls, ∀ o, s.catalog.offer? b.id = some o → o.source ≠ some source →
    (o.exactValue b.state.value == b.state.value) = true

/-- No control that depends on another one and has its choices from the source is filled in. -/
def EmptyFrom (s : Session) (source : String) : Prop :=
  ∀ e ∈ Dependency.ofRules s.config.dependentRules s.tree, ∀ o,
    s.catalog.offer? e.child = some o → o.source = some source →
      ∀ v, s.controls.value? e.child = some v → v.isFilled = false

/-- A failure itself gives no control another spelling. -/
theorem SpelledBeside.reconcile_failing (h : s.SpelledBeside source) :
    (s.failing source).reconcile = s.failing source := by
  have same : (s.failing source).catalog.reconcile s.controls = s.controls := by
    refine Catalog.reconcile_of_spelled fun b hb o found => ?_
    rcases offer?_failing_cases found with ⟨-, -, -, none, -⟩ | ⟨there, beside⟩
    · rw [Offer.exactValue_of_nil none]
      exact Json.beq_self _
    · exact h b hb o there beside
  unfold reconcile
  exact congrArg (fun controls => { s.failing source with controls }) same

/-- A failure takes no value where the children of the source are empty. -/
theorem EmptyFrom.quiet_failing (h : s.EmptyFrom source) (standing : s.Standing)
    (stocked : s.Stocked) : (s.failing source).Quiet := by
  refine ⟨fun e he => ?_, standing.quiet.keeps⟩
  have there := stocked.mem_dependencies_iff.1 he
  obtain ⟨rule, parent, child, family⟩ := standing.family there
  have kept := standing.quiet.respects e he
  rw [Refresh.loses_of_some family.rule family.child] at kept
  refine (Refresh.loses_of_some family.rule family.child).trans ?_
  dsimp only at kept ⊢
  cases found : (s.failing source).catalog.offer? e.child with
  | none =>
    rw [offer?_failing, Option.map_eq_none_iff] at found
    rwa [found] at kept
  | some o =>
    rcases offer?_failing_cases found with ⟨before, had, from_source, -⟩ | ⟨had, -⟩
    · have empty := h e there before had from_source _ (ControlSet.value?_of_get? family.child)
      simp [Dependent.losesValue, empty]
    · rwa [had] at kept

/-- What a failure leaves of a value that is not in the spelling of its choices is another one. -/
theorem value_ne_of_not_spelled {o : Offer} {v w : Json} (other : ¬(o.exactValue v == v) = true)
    (wanes : (o.exactValue v).Wanes w) : w ≠ v := by
  rintro rfl
  rcases wanes with same | ⟨-, emptied⟩
  · rw [← same] at other
    exact other (Json.beq_self _)
  · have spelled := o.exactValue_emptied (o.exactValue w)
    rw [← emptied] at spelled
    rw [spelled] at other
    exact other (Json.beq_self _)

/-- Once a source has failed and the form is settled, its controls have no choice left. -/
theorem exists_offer_failed {id : String} {o : Offer} (found : s.catalog.offer? id = some o)
    (from_source : o.source = some source) :
    ∃ o', (s.failing source).reconcile.settle.catalog.offer? id = some o' ∧ o'.loaded = true ∧
      o'.all = [] := by
  have failed : (s.failing source).reconcile.catalog.shut? id =
      some ⟨o.source, [], [], true, o.maxOptions⟩ := by
    refine (congrArg (Option.map Offer.shut) (offer?_failing id)).trans ?_
    rw [found, Option.map_some, if_pos from_source]
    rfl
  rw [← shut?_settle] at failed
  obtain ⟨o', found', same⟩ := Option.map_eq_some_iff.1 failed
  exact ⟨o', found', congrArg Offer.loaded same, congrArg Offer.all same⟩

/-- Where a failure loses no value, the children of the source are empty. -/
theorem emptyFrom_of_kept (standing : s.Standing) (stocked : s.Stocked)
    (kept : ∀ id, (s.failing source).reconcile.settle.controls.value? id = s.controls.value? id) :
    s.EmptyFrom source := by
  intro e he o found from_source v value
  have founded : (s.failing source).Founded := standing.replace rfl _ s.selections
  have settled := founded.reconcile.settle
  have same := (s.failing source).reconcile.settle_eq
  have there : e ∈ Dependency.ofRules (s.failing source).reconcile.settle.config.dependentRules
      (s.failing source).reconcile.settle.tree := by
    rw [same]
    exact he
  have stocked' : (s.failing source).reconcile.settle.Stocked :=
    (stocked.take source .failed).reconcile.settle
  obtain ⟨rule, parent, child, family⟩ := settled.family there
  have agrees := settled.agrees (stocked'.mem_dependencies_iff.2 there) family
  rw [← kept, ControlSet.value?_of_get? family.child] at value
  obtain rfl := Option.some.inj value
  by_contra held
  rw [Bool.not_eq_false] at held
  have filled : parent.value.isFilled = true := by
    by_contra empty
    rw [agrees.empty (by simpa using empty)] at held
    cases held
  obtain ⟨o', found', loaded, none⟩ := exists_offer_failed found from_source
  obtain ⟨part, hpart⟩ := Json.exists_part held
  obtain ⟨choice, offered, -⟩ := agrees.linked filled o' found' loaded held part hpart
  rw [none] at offered
  cases offered

/-- Where a failure loses no value, the spellings of the other choices are caught up on. -/
theorem spelledBeside_of_kept (standing : s.Standing)
    (kept : ∀ id, (s.failing source).reconcile.settle.controls.value? id = s.controls.value? id) :
    s.SpelledBeside source := by
  intro b hb o found beside
  have founded : (s.failing source).Founded := standing.replace rfl _ s.selections
  by_contra other
  have offered : (s.failing source).catalog.offer? b.id = some o := by
    simp [offer?_failing, found, beside]
  rcases (s.failing source).catalog.reconciled_cases b with ⟨spelled, -⟩ | ⟨o', offered', given⟩
  · exact other (spelled o offered)
  · obtain rfl := Option.some.inj (offered.symm.trans offered')
    have there : (s.failing source).catalog.reconciled b ∈ (s.failing source).reconcile.controls :=
      List.mem_map_of_mem hb
    have value := ControlSet.value?_of_get?
      (ControlSet.get?_of_mem founded.reconcile.bound.distinct there)
    rw [given] at value
    obtain ⟨w, left, wanes⟩ := founded.reconcile.bound.settle_fades.wanes.exists_value value
    rw [kept, ControlSet.value?_of_get? (ControlSet.get?_of_mem standing.bound.distinct hb)] at left
    exact value_ne_of_not_spelled other wanes (Option.some.inj left).symm

/-- A failure to fetch a source loses no value if and only if no filled control that depends on another one
has its choices from the source, and there is no spelling to catch up on elsewhere. -/
theorem receiveChoices_failed_keeps_iff (h : s.Reachable) (source : String) :
    (∀ id, (s.receiveChoices s.catalog.generation source .failed).2.controls.value? id =
        s.controls.value? id) ↔
      s.EmptyFrom source ∧ s.SpelledBeside source := by
  have standing := h.standing
  rw [receiveChoices_failed]
  constructor
  · intro kept
    exact ⟨emptyFrom_of_kept standing h.stocked kept, spelledBeside_of_kept standing kept⟩
  · rintro ⟨empty, spelled⟩ id
    have founded : (s.failing source).Founded := standing.replace rfl _ s.selections
    rw [spelled.reconcile_failing]
    have quiet := empty.quiet_failing standing h.stocked
    exact ControlSet.value?_congr (quiet.readings_settle founded.bound) id

/-- The region of a country, both as they were stored, in a form that waits for its sources. -/
def located : Session :=
  (Session.start "" { dependentRules := [⟨"region", "country", "countryId"⟩] }
    ⟨none, [⟨"Place", none, none, none,
      [choiceOf "country" .null, choiceOf "region" .null], [], [],
      ⟨.always, none, .null⟩, true, none, []⟩], [], []⟩).run
    (.loadDocument (some "\x7b\"country\": \"5\", \"region\": \"r1\"\x7d"))

theorem reachable_located : located.Reachable := .run (.start ..) _

/-- That the countries cannot be fetched loses no value. -/
theorem receiveChoices_failed_keeps_located :
    located.Reachable ∧ ∀ id,
      (located.receiveChoices located.catalog.generation "country" .failed).2.controls.value? id =
        located.controls.value? id := by
  have children : ∀ e ∈ Dependency.ofRules located.config.dependentRules located.tree,
      (located.catalog.offer? e.child).all fun o => o.source = some "region" := by decide +kernel
  have spelled : ∀ b ∈ located.controls, (located.catalog.offer? b.id).all fun o =>
      o.exactValue b.state.value == b.state.value := by decide +kernel
  refine ⟨reachable_located, (receiveChoices_failed_keeps_iff reachable_located "country").2 ⟨?_, ?_⟩⟩
  · intro e he o found from_source
    have elsewhere := children e he
    simp [found, from_source] at elsewhere
  · intro b hb o found _
    simpa [found] using spelled b hb

/-- That the regions cannot be fetched loses the region. -/
theorem receiveChoices_failed_loses_region :
    located.Reachable ∧
      (located.controls.value? "region").map (Json.same (.str "r1")) = some true ∧
      ((located.receiveChoices located.catalog.generation "region" .failed).2.controls.value?
        "region").map Json.isFilled = some false := by
  refine ⟨reachable_located, ?_, ?_⟩
  · decide +kernel
  · decide +kernel

end Session

end Formwork
