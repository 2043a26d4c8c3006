import Formwork.Proofs.Choice.Respelling
import Formwork.Proofs.Session.Sorted

/-!
# Offers and locks of a session

Of an offer, settling decides only which choices are on offer; where they come from, what there is and
whether it has arrived is the work of laying out the form and of answers. Controls that depend on no
other are never locked and are offered every choice, and offers of one source have arrived together.
-/
namespace Formwork

def Offer.shut (o : Offer) : Offer := { o with available := [] }

def Response.answer : Response → List Json
  | .rows found => found
  | .failed => []

def Catalog.shut? (id : String) (c : Catalog) : Option Offer := (c.offer? id).map Offer.shut

theorem Table.ascending_adjust {α : Type} (key : String) (f : α → α) {t : Table α}
    (h : Table.Ascending t) : Table.Ascending (Table.adjust key f t) := by
  unfold Table.adjust
  split
  · exact Table.ascending_modify key _ h
  · exact h

namespace Refresh

variable {config : Config} {r : Refresh}

/-- Following a dependency changes one offer, and of that only the choices on offer. -/
theorem catalog_follow (config : Config) (r : Refresh) (e : Dependency) :
    ∃ offers, (follow config r e).catalog = { r.catalog with offers } ∧
      (r.catalog.offers.Ascending → offers.Ascending) ∧
      (∀ id, (Table.get? id offers).map Offer.shut = r.catalog.shut? id) ∧
      ∀ id, id ≠ e.child → Table.get? id offers = r.catalog.offer? id := by
  rcases follow_cases config r e with ⟨same, -⟩ | ⟨rule, child, hrule, hchild⟩
  · rw [same]
    exact ⟨r.catalog.offers, rfl, id, fun _ => rfl, fun _ _ => rfl⟩
  · rw [follow_of_some hrule hchild]
    refine ⟨_, rfl, Table.ascending_adjust _ _, fun id => ?_, fun id other => ?_⟩
    · by_cases hid : id = e.child
      · rw [hid, Table.get?_adjust_self, Option.map_map]
        rfl
      · rw [Table.get?_adjust_of_ne hid]
        rfl
    · exact Table.get?_adjust_of_ne other _ _

/-- Following a dependency leaves all controls but the child alone. -/
theorem get?_follow_of_ne {e : Dependency} {id : String} (other : id ≠ e.child) :
    (follow config r e).controls.get? id = r.controls.get? id := by
  rcases follow_cases config r e with ⟨same, -⟩ | ⟨rule, child, hrule, hchild⟩
  · rw [same]
  · rw [follow_of_some hrule hchild]
    dsimp only
    rw [ControlSet.get?_modify_of_ne other]

/-- Following dependencies decides anew which choices are on offer, and nothing else about the offers. -/
theorem catalog_foldl_follow (config : Config) (edges : List Dependency) (r : Refresh) :
    ∃ offers, (edges.foldl (follow config) r).catalog = { r.catalog with offers } ∧
      (r.catalog.offers.Ascending → offers.Ascending) ∧
      (∀ id, (Table.get? id offers).map Offer.shut = r.catalog.shut? id) ∧
      ∀ id, (∀ e ∈ edges, id ≠ e.child) → Table.get? id offers = r.catalog.offer? id := by
  induction edges generalizing r with
  | nil => exact ⟨r.catalog.offers, rfl, id, fun _ => rfl, fun _ _ => rfl⟩
  | cons e edges ih =>
    obtain ⟨between, first, sorted, shut, others⟩ := catalog_follow config r e
    obtain ⟨offers, rest, sorted', shut', others'⟩ := ih (follow config r e)
    simp only [first, Catalog.shut?, Catalog.offer?] at rest sorted' shut' others'
    refine ⟨offers, rest, fun h => sorted' (sorted h), ?_, ?_⟩
    · intro id
      exact (shut' id).trans (shut id)
    · intro id none
      obtain ⟨other, none⟩ := List.forall_mem_cons.1 none
      exact (others' id none).trans (others id other)

theorem get?_foldl_follow_of_ne {edges : List Dependency} {id : String}
    (none : ∀ e ∈ edges, id ≠ e.child) :
    (edges.foldl (follow config) r).controls.get? id = r.controls.get? id := by
  induction edges generalizing r with
  | nil => rfl
  | cons e edges ih =>
    obtain ⟨other, none⟩ := List.forall_mem_cons.1 none
    exact (ih none).trans (get?_follow_of_ne other)

end Refresh

def BoundControl.lock (b : BoundControl) : String × Bool := (b.id, b.state.dependencyLocked)

theorem BoundControl.lasts_lock : BoundControl.Lasts lock := fun _ _ => rfl

theorem ControlSet.lock?_congr {s t : ControlSet}
    (h : t.map BoundControl.lock = s.map BoundControl.lock) (id : String) :
    (t.get? id).map Control.dependencyLocked = (s.get? id).map Control.dependencyLocked := by
  have told : ∀ u : ControlSet, (u.get? id).map Control.dependencyLocked =
      ((u.map BoundControl.lock).find? fun l => l.1 = id).map (·.2) := by
    intro u
    simp only [get?, List.find?_map, Option.map_map]
    rfl
  rw [told, told, h]

/-- A plan changes no lock. -/
theorem VisibilityPlan.locked_apply (p : VisibilityPlan) (controls : ControlSet) (id : String) :
    (ControlSet.get? id (p.apply controls).1).map Control.dependencyLocked =
      (controls.get? id).map Control.dependencyLocked := by
  rw [apply_eq_foldl]
  have carried : ∀ (fields : List (String × Bool)) (acc : ControlSet × List String),
      (ControlSet.get? id (fields.foldl carryOut acc).1).map Control.dependencyLocked =
        (acc.1.get? id).map Control.dependencyLocked := by
    intro fields
    induction fields with
    | nil => exact fun _ => rfl
    | cons e fields ih =>
      intro acc
      refine (ih _).trans ?_
      by_cases hid : id = e.1
      · rw [carryOut, hid, ControlSet.get?_modify_self, Option.map_map]
        congr 1
        funext c
        simp only [Function.comp, Control.present]
        split <;> rfl
      · rw [carryOut, ControlSet.get?_modify_of_ne hid]
  exact carried p.fields (controls, [])

/-- The offers are in order, and so are the rows that are kept. Offers of one source have arrived
together. -/
structure Catalog.Sound (c : Catalog) : Prop where
  offers : c.offers.Ascending
  cache : c.cache.Ascending
  together : ∀ id id' o o', c.shut? id = some o → c.shut? id' = some o' → o.source.isSome →
    o.source = o'.source → o.loaded = o'.loaded

theorem Catalog.Sound.of_shut {c d : Catalog} (h : c.Sound) (offers : d.offers.Ascending)
    (cache : d.cache = c.cache) (shut : ∀ id, d.shut? id = c.shut? id) : d.Sound where
  offers := offers
  cache := cache ▸ h.cache
  together := by
    intro id id' o o' found found' there same
    rw [shut] at found found'
    exact h.together id id' o o' found found' there same

/-- The offer to a field when it is laid out has all its choices on offer, and if they come from a source
it waits for them unless the rows are kept. -/
theorem Field.offer?_spec {config : Config} {cache : Table (List Json)} {f : Field} {o : Offer}
    (made : f.offer? config cache = some o) :
    o.available = o.all ∧ ∀ source, o.source = some source → o.loaded = Table.has source cache := by
  unfold Field.offer? at made
  split at made
  · obtain rfl := Option.some.inj made
    split
    · split
      · rename_i found
        refine ⟨rfl, fun source same => ?_⟩
        obtain rfl := Option.some.inj same
        rw [Table.has, found]
        rfl
      · rename_i absent
        refine ⟨rfl, fun source same => ?_⟩
        obtain rfl := Option.some.inj same
        rw [Table.has, absent]
        rfl
    · exact ⟨rfl, fun source same => nomatch same⟩
  · cases made

namespace Catalog

variable (c : Catalog) (config : Config)

/-- An answer fills the offers of its source. -/
theorem offers_take (source : String) (response : Response) :
    (c.take config source response).offers = c.offers.mapValues fun o =>
      if o.source = some source then o.fill config source response.answer else o := by
  cases response <;> rfl

theorem offer?_take (source : String) (response : Response) (id : String) :
    (c.take config source response).offer? id = (c.offer? id).map fun o =>
      if o.source = some source then o.fill config source response.answer else o := by
  rw [offer?, offers_take, Table.get?_mapValues, offer?]

/-- An offer arrives when its source answers, and otherwise it is as far as it was. -/
theorem exists_shut?_take {c : Catalog} {config : Config} {source : String} {response : Response}
    {id : String} {o : Offer} (found : (c.take config source response).shut? id = some o) :
    ∃ before, c.shut? id = some before ∧ o.source = before.source ∧
      o.loaded = (before.loaded || o.source = some source) := by
  rw [shut?, offer?_take, Option.map_map] at found
  obtain ⟨before, there, rfl⟩ := Option.map_eq_some_iff.1 found
  refine ⟨before.shut, by rw [shut?, there, Option.map_some], ?_⟩
  by_cases from_source : before.source = some source <;>
    simp [from_source, Offer.shut, Offer.fill]

theorem Sound.take {c : Catalog} (h : c.Sound) (config : Config) (source : String)
    (response : Response) : (c.take config source response).Sound where
  offers := by
    rw [offers_take]
    exact Table.ascending_mapValues _ h.offers
  cache := by
    cases response with
    | rows rows => exact Table.ascending_insert source rows h.cache
    | failed => exact h.cache
  together := by
    intro id id' o o' found found' there same
    obtain ⟨before, hbefore, source_eq, loaded⟩ := exists_shut?_take found
    obtain ⟨before', hbefore', source_eq', loaded'⟩ := exists_shut?_take found'
    have earlier := h.together id id' before before' hbefore hbefore' (source_eq ▸ there)
      (source_eq.symm.trans (same.trans source_eq'))
    rw [loaded, loaded', earlier, same]

/-- Where the choices on offer are all that differs, an offer has a counterpart with the same choices. -/
theorem exists_offer_of_shut {c d : Catalog} {id : String} (shut : d.shut? id = c.shut? id) {o : Offer}
    (found : d.offer? id = some o) : ∃ o', c.offer? id = some o' ∧ o'.stock = o.stock := by
  rw [shut?, found, Option.map_some] at shut
  obtain ⟨o', found', same⟩ := Option.map_eq_some_iff.1 shut.symm
  have stock : o'.shut.stock = o.shut.stock := congrArg Offer.stock same
  exact ⟨o', found', stock⟩

theorem Within.of_shut {c d d' : Catalog} (h : d.Within c) (shut : ∀ id, d'.shut? id = d.shut? id) :
    d'.Within c := by
  intro id o found loaded
  obtain ⟨before, there, stock⟩ := exists_offer_of_shut (shut id) found
  obtain ⟨o', found', stock'⟩ := h id before there ((congrArg Prod.snd stock).trans loaded)
  exact ⟨o', found', stock'.trans stock⟩

theorem Spelled.of_shut {c d : Catalog} {b : BoundControl} (h : c.Spelled b)
    (shut : ∀ id, d.shut? id = c.shut? id) : d.Spelled b := by
  intro o found
  obtain ⟨before, there, stock⟩ := exists_offer_of_shut (shut b.id) found
  rw [← Offer.exactValue_congr _ stock]
  exact h before there

theorem exists_of_offer?_bind {config : Config} {t : FormTree} {id : String} {o : Offer}
    (found : (c.bind config t).offer? id = some o) :
    ∃ p ∈ t.fields, p.controlId = id ∧ p.field.offer? config c.cache = some o := by
  rcases Table.mem_of_get?_override (t := []) found with there | absent
  · obtain ⟨p, hp, made⟩ := List.mem_filterMap.1 there
    obtain ⟨_, offer, same⟩ := Option.map_eq_some_iff.1 made
    obtain ⟨named, rfl⟩ := Prod.mk.inj same
    exact ⟨p, hp, named, offer⟩
  · cases absent

theorem sound_bind (t : FormTree) (cache : c.cache.Ascending) : (c.bind config t).Sound where
  offers := Table.ascending_ofPairs _
  cache := cache
  together := by
    have told : ∀ {id o}, (c.bind config t).shut? id = some o → ∀ source, o.source = some source →
        o.loaded = Table.has source c.cache := by
      intro id o found source from_source
      obtain ⟨before, there, rfl⟩ := Option.map_eq_some_iff.1 found
      obtain ⟨p, -, -, made⟩ := c.exists_of_offer?_bind there
      exact (Field.offer?_spec made).2 source from_source
    intro id id' o o' found found' there same
    obtain ⟨source, from_source⟩ := Option.isSome_iff_exists.1 there
    rw [told found source from_source, told found' source (same ▸ from_source)]

end Catalog

namespace Session

variable {s t : Session}

/-- A control that depends on no other is not locked, and every choice there is for it is on offer. -/
structure Free (s : Session) : Prop where
  unlocked : ∀ id, (∀ e ∈ s.dependencies, id ≠ e.child) → ∀ c, s.controls.get? id = some c →
    c.dependencyLocked = false
  whole : ∀ id, (∀ e ∈ s.dependencies, id ≠ e.child) → ∀ o, s.catalog.offer? id = some o →
    o.available = o.all

structure Stocked (s : Session) : Prop extends s.Free where
  dependencies : s.dependencies =
    Dependency.ordered (Dependency.ofRules s.config.dependentRules s.tree)
  sound : s.catalog.Sound

/-- A round changes of the catalog only the choices on offer. -/
theorem catalog_round (s : Session) :
    ∃ offers, s.round.1.catalog = { s.catalog with offers } ∧
      (s.catalog.offers.Ascending → offers.Ascending) ∧
      (∀ id, (Table.get? id offers).map Offer.shut = s.catalog.shut? id) ∧
      ∀ id, (∀ e ∈ s.dependencies, id ≠ e.child) → Table.get? id offers = s.catalog.offer? id :=
  Refresh.catalog_foldl_follow s.config s.dependencies ⟨s.controls, s.catalog, false⟩

/-- So does settling. -/
theorem catalog_settle (s : Session) :
    ∃ offers, s.settle.catalog = { s.catalog with offers } ∧
      ∀ id, (Table.get? id offers).map Offer.shut = s.catalog.shut? id := by
  refine settle_induction (P := fun t => ∃ offers, t.catalog = { s.catalog with offers } ∧
    ∀ id, (Table.get? id offers).map Offer.shut = s.catalog.shut? id) ?_
    ⟨s.catalog.offers, rfl, fun _ => rfl⟩
  rintro t ⟨offers, catalog, shut⟩
  obtain ⟨offers', catalog', -, shut', -⟩ := t.catalog_round
  refine ⟨offers', by rw [catalog', catalog], fun id => ?_⟩
  rw [shut', Catalog.shut?, catalog]
  exact shut id

@[simp] theorem shut?_settle (s : Session) (id : String) :
    s.settle.catalog.shut? id = s.catalog.shut? id := by
  obtain ⟨offers, catalog, shut⟩ := s.catalog_settle
  rw [catalog]
  exact shut id

theorem Stocked.round (h : s.Stocked) : s.round.1.Stocked := by
  obtain ⟨offers, catalog, sorted, shut, others⟩ := s.catalog_round
  refine ⟨⟨?_, ?_⟩, h.dependencies, ?_⟩
  · intro id none c found
    have locks := VisibilityPlan.locked_apply (s.tree.plan s.refresh.controls) s.refresh.controls id
    have same : s.refresh.controls.get? id = s.controls.get? id :=
      Refresh.get?_foldl_follow_of_ne none
    rw [round_eq] at found
    rw [found, same] at locks
    obtain ⟨before, there, lock⟩ := Option.map_eq_some_iff.1 locks.symm
    rw [← lock]
    exact h.unlocked id none before there
  · intro id none o found
    rw [catalog] at found
    exact h.whole id none o ((others id none).symm.trans found)
  · rw [catalog]
    exact h.sound.of_shut (sorted h.sound.offers) rfl shut

theorem Stocked.settle (h : s.Stocked) : s.settle.Stocked :=
  settle_induction (fun _ => Stocked.round) h

/-- A form in which locks, dependencies and offers are those of another one. -/
theorem Stocked.of_same (h : s.Stocked) (config : t.config = s.config) (tree : t.tree = s.tree)
    (dependencies : t.dependencies = s.dependencies) (catalog : t.catalog.offers = s.catalog.offers)
    (cache : t.catalog.cache = s.catalog.cache)
    (locks : t.controls.map BoundControl.lock = s.controls.map BoundControl.lock) : t.Stocked := by
  have offer : ∀ id, t.catalog.offer? id = s.catalog.offer? id := by
    intro id
    rw [Catalog.offer?, catalog, Catalog.offer?]
  refine ⟨⟨?_, ?_⟩, ?_, ?_⟩
  · intro id none c found
    have same := ControlSet.lock?_congr locks id
    rw [found] at same
    obtain ⟨before, there, lock⟩ := Option.map_eq_some_iff.1 same.symm
    rw [← lock]
    exact h.unlocked id (dependencies ▸ none) before there
  · intro id none o found
    exact h.whole id (dependencies ▸ none) o (offer id ▸ found)
  · rw [dependencies, h.dependencies, config, tree]
  · refine h.sound.of_shut (catalog ▸ h.sound.offers) cache fun id => ?_
    rw [Catalog.shut?, offer, Catalog.shut?]

/-- A form with other controls that are locked alike. -/
theorem Stocked.replace (h : s.Stocked) {controls : ControlSet}
    (locks : controls.map BoundControl.lock = s.controls.map BoundControl.lock)
    (selections : Selections) : { s with controls, selections }.Stocked :=
  h.of_same rfl rfl rfl rfl rfl locks

theorem Stocked.reconcile (h : s.Stocked) : s.reconcile.Stocked :=
  h.of_same rfl rfl rfl rfl rfl (s.catalog.map_reconcile BoundControl.lasts_lock s.controls)

/-- A form in which an answer is taken. -/
theorem Stocked.take (h : s.Stocked) (source : String) (response : Response) :
    { s with catalog := s.catalog.take s.config source response }.Stocked := by
  refine ⟨⟨h.unlocked, ?_⟩, h.dependencies, ?_⟩
  · intro id none o found
    obtain ⟨before, there, rfl⟩ := Option.map_eq_some_iff.1
      ((s.catalog.offer?_take s.config source response id).symm.trans found)
    split
    · rfl
    · exact h.whole id none before there
  · exact h.sound.take s.config source response

theorem stocked_rebuild (before : Fields) (s : Session) (cache : s.catalog.cache.Ascending) :
    (s.rebuild before).Stocked := by
  have bound : (s.layOut.bind before).Stocked := by
    refine ⟨⟨?_, ?_⟩, rfl, ?_⟩
    · intro id none c found
      have fresh := ControlSet.ofTree_eq_map s.layOut.circumstances before (laidOut_layOut s).distinct
      have there : (s.layOut.bind before).controls = s.layOut.tree.fields.map _ := fresh
      rw [there, ControlSet.get?] at found
      obtain ⟨b, hb, rfl⟩ := Option.map_eq_some_iff.1 found
      obtain ⟨p, -, rfl⟩ := List.mem_map.1 (List.mem_of_find?_eq_some hb)
      rfl
    · intro id none o found
      obtain ⟨p, -, -, made⟩ := s.layOut.catalog.exists_of_offer?_bind found
      exact (Field.offer?_spec made).1
    · exact s.layOut.catalog.sound_bind s.layOut.config s.layOut.tree cache
  exact bound.reconcile.settle

/-- An answer that is expected is taken, and another one changes nothing. -/
theorem answered_cases (fetch : String → List String → Response) (config : Config) (c : Catalog)
    (r : ChoiceRequest) :
    answered fetch config c r = c ∨
      answered fetch config c r = c.take config r.source (fetch r.source r.moduleHints) := by
  unfold answered Catalog.receive?
  split
  · exact .inr rfl
  · exact .inl rfl

theorem Stocked.answered (fetch : String → List String → Response) (requests : List ChoiceRequest)
    (h : s.Stocked) :
    { s with catalog := requests.foldl (Session.answered fetch s.config) s.catalog }.Stocked := by
  induction requests generalizing s with
  | nil => exact h
  | cons r requests ih =>
    rw [List.foldl_cons]
    rcases answered_cases fetch s.config s.catalog r with late | taken
    · rw [late]
      exact ih h
    · rw [taken]
      exact ih (h.take r.source (fetch r.source r.moduleHints))

theorem Stocked.askForChoices (h : s.Stocked) : s.askForChoices.2.Stocked :=
  h.of_same rfl rfl rfl rfl rfl rfl

theorem Stocked.commitSaved (h : s.Stocked) (document : Fields) :
    (s.commitSaved document).Stocked := by
  refine h.of_same rfl rfl rfl rfl rfl ?_
  unfold Session.commitSaved ControlSet.commit
  rw [List.map_map]
  rfl

/-- Every operation keeps the dependencies and the offers in this state. -/
theorem Stocked.run (h : s.Stocked) (operation : Operation) : (s.run operation).Stocked := by
  have forgotten : s.catalog.renew.cache.Ascending := Table.ascending_nil
  have effect := s.effect_run operation
  generalize s.run operation = t at effect ⊢
  cases effect with
  | refused => exact h
  | passTime => exact h.of_same rfl rfl rfl rfl rfl rfl
  | setOperator => exact stocked_rebuild _ _ h.sound.cache
  | loadTemplate => exact stocked_rebuild _ _ forgotten
  | fetchTemplate => exact stocked_rebuild _ _ forgotten
  | loadDocument => exact stocked_rebuild _ _ h.sound.cache
  | fetchDocument => exact stocked_rebuild _ _ h.sound.cache
  | setStep => exact stocked_rebuild _ _ forgotten
  | setValue _ _ _ set =>
    exact (h.replace (ControlSet.map_set? BoundControl.lasts_lock set) _).reconcile.settle
  | touch id =>
    exact h.of_same rfl rfl rfl rfl rfl (ControlSet.map_modify (fun _ => rfl) id s.controls)
  | addInstance => exact stocked_rebuild _ _ h.sound.cache
  | removeInstance => exact stocked_rebuild _ _ h.sound.cache
  | askForChoices => exact h.askForChoices
  | missedChoices => exact h
  | receiveChoices source response => exact (h.take source response).reconcile.settle
  | resolveChoices fetch => exact (h.askForChoices.answered fetch _).reconcile.settle
  | select _ _ _ _ _ taken =>
    exact (h.replace (Lookup.map_select? BoundControl.lasts_lock taken) _).reconcile.settle
  | deselect _ _ _ _ taken =>
    exact (h.replace (Lookup.map_clear? BoundControl.lasts_lock taken) _).settle
  | commitSaved document => exact h.commitSaved document
  | save _ _ document => exact h.commitSaved document

theorem Reachable.stocked (h : Reachable s) : s.Stocked := by
  induction h with
  | start now config template => exact stocked_rebuild _ _ Table.ascending_nil
  | run _ operation ih => exact ih.run operation

end Session

end Formwork
