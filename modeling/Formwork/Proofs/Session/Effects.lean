import Formwork.Control.Lemmas
import Formwork.Session.Operation

/-!
# What operations do

An operation may be refused. For each of those that may, this says what it takes to be done and what the
session is then like, so that what an operation keeps can be read off without opening it again.
-/
namespace Formwork

variable {g g' : Registry} {s t : Session} {key id : String} {v selected : Json} {changes : ChangeSet}

theorem Registry.add?_eq_some_iff :
    g.add? key = some g' ↔ ∃ e n, g.entry? key = some e ∧ g.count? key = some n ∧
      n < e.bounds.max ∧ g' = { g with counts := Table.modify key (· + 1) g.counts } := by
  rw [add?, canAdd, known?]
  cases entry : g.entry? key with
  | none => simp
  | some e =>
    cases count : g.count? key with
    | none => simp
    | some n =>
      constructor
      · intro added
        dsimp only at added
        split at added
        · rename_i able
          obtain rfl := Option.some.inj added
          exact ⟨e, n, rfl, rfl, of_decide_eq_true able, rfl⟩
        · cases added
      · rintro ⟨_, _, known, known', able, rfl⟩
        obtain rfl := Option.some.inj known
        obtain rfl := Option.some.inj known'
        exact if_pos (decide_eq_true able)

namespace Session

/-- Two steps succeed together if one after the other does. -/
theorem bind_eq_ok_iff {α β : Type} {x : Except FormError α} {f : α → Except FormError β} {b : β} :
    x >>= f = .ok b ↔ ∃ a, x = .ok a ∧ f a = .ok b := by
  cases x with
  | error e => exact ⟨nofun, fun ⟨_, h, _⟩ => nomatch h⟩
  | ok a =>
    constructor
    · intro h
      exact ⟨a, rfl, h⟩
    · rintro ⟨_, h, h'⟩
      obtain rfl := Except.ok.inj h
      exact h'

/-- What is reported of a session that was settled anew, and the session itself. -/
theorem reported_eq_iff {requested : Option String} {u : Session} :
    Except.ok (ε := FormError) (reported s requested u) = .ok (changes, t) ↔
      changes = .between requested s.appearance t.appearance ∧ t = u := by
  rw [Except.ok.injEq, reported, Prod.mk.injEq]
  constructor
  · rintro ⟨rfl, rfl⟩
    exact ⟨rfl, rfl⟩
  · rintro ⟨rfl, rfl⟩
    exact ⟨rfl, rfl⟩

theorem setValue_eq_ok_iff :
    s.setValue id v = .ok (changes, t) ↔ ∃ controls, s.controls.set? id v = some controls ∧
      changes = .between (some id) s.appearance t.appearance ∧
      t = { s with controls }.reconcile.settle := by
  rw [setValue]
  cases set : s.controls.set? id v with
  | none => simp
  | some controls =>
    dsimp only
    rw [reported_eq_iff]
    simp

theorem touch_eq_ok_iff :
    s.touch id = .ok t ↔
      id ∈ s.controls.ids ∧ t = { s with controls := s.controls.modify id Control.touch } := by
  rw [touch, ControlSet.touch?, ← ControlSet.has_eq_true_iff]
  cases there : s.controls.has id with
  | false => simp
  | true => simp [eq_comm]

theorem select_eq_ok_iff :
    s.select id selected = .ok (changes, t) ↔ ∃ field lookup controls,
      s.lookup id = .ok (field, lookup) ∧
      lookup.select? s.config field selected s.controls = some controls ∧
      changes = .between (some id) s.appearance t.appearance ∧
      t = { s with
            controls
            selections := Table.insert id selected s.selections }.reconcile.settle := by
  rw [select, bind_eq_ok_iff]
  constructor
  · rintro ⟨⟨field, lookup⟩, found, done⟩
    dsimp only at done
    split at done
    · rename_i controls taken
      exact ⟨field, lookup, controls, found, taken, reported_eq_iff.1 done⟩
    · cases done
  · rintro ⟨field, lookup, controls, found, taken, done⟩
    refine ⟨(field, lookup), found, ?_⟩
    dsimp only
    rw [taken]
    exact reported_eq_iff.2 done

theorem deselect_eq_ok_iff :
    s.deselect id = .ok (changes, t) ↔ ∃ field lookup controls,
      s.lookup id = .ok (field, lookup) ∧ lookup.clear? field s.controls = some controls ∧
      changes = .between (some id) s.appearance t.appearance ∧
      t = { s with controls, selections := Table.erase id s.selections }.settle := by
  rw [deselect, bind_eq_ok_iff]
  constructor
  · rintro ⟨⟨field, lookup⟩, found, done⟩
    dsimp only at done
    split at done
    · rename_i controls taken
      exact ⟨field, lookup, controls, found, taken, reported_eq_iff.1 done⟩
    · cases done
  · rintro ⟨field, lookup, controls, found, taken, done⟩
    refine ⟨(field, lookup), found, ?_⟩
    dsimp only
    rw [taken]
    exact reported_eq_iff.2 done

theorem save_eq_ok_iff {store : DocumentKey → Fields → String → Except FormError Unit}
    {key : DocumentKey} {document : Fields} :
    s.save store key = .ok (document, t) ↔ s.prepareSave = .ok document ∧
      store key document (s.operator.getD "") = .ok () ∧ t = s.commitSaved document := by
  rw [save, bind_eq_ok_iff]
  constructor
  · rintro ⟨prepared, ready, done⟩
    obtain ⟨_, stored, done⟩ := bind_eq_ok_iff.1 done
    obtain ⟨rfl, rfl⟩ := Prod.mk.inj (Except.ok.inj done)
    exact ⟨ready, stored, rfl⟩
  · rintro ⟨ready, stored, rfl⟩
    exact ⟨document, ready, bind_eq_ok_iff.2 ⟨(), stored, rfl⟩⟩

/-- An operation that may be refused keeps what holds of the session, if it does so when done. -/
theorem orUnchanged_of {P : Session → Prop} (h : P s) {result : Except FormError Session}
    (each : ∀ t, result = .ok t → P t) : P (s.orUnchanged result) := by
  cases result with
  | error e => exact h
  | ok t => exact each t rfl

theorem orUnchanged_map_of {P : Session → Prop} (h : P s) {α : Type} {result : Except FormError α}
    {session : α → Session} (each : ∀ a, result = .ok a → P (session a)) :
    P (s.orUnchanged (result.map session)) := by
  cases result with
  | error e => exact h
  | ok a => exact each a rfl

theorem getD_of {P : Session → Prop} (h : P s) {result : Option Session}
    (each : ∀ t, result = some t → P t) : P (result.getD s) := by
  cases result with
  | none => exact h
  | some t => exact each t rfl

/-- The operations that may be refused. -/
def mayRefuse : Operation → Bool
  | .fetchTemplate .. | .fetchDocument .. | .setValue .. | .touch _ | .addInstance _ | .removeInstance ..
  | .select .. | .deselect _ | .save .. => true
  | _ => false

/-- What an operation leads to, with what it takes to be done. Everything that operations keep is shown by
cases on this, and each case says what the session is then like. -/
inductive Effect (s : Session) : Operation → Session → Prop
  | refused (operation : Operation) (may : mayRefuse operation = true) : Effect s operation s
  | passTime (now : String) : Effect s (.passTime now) { s with now }
  | setOperator (operator : String) : Effect s (.setOperator operator) (s.withOperator operator)
  | loadTemplate (template : Template) : Effect s (.loadTemplate template) (s.loadTemplate template)
  | fetchTemplate (fetch : String → Except FormError String) (id : String) (template : Template) :
    Effect s (.fetchTemplate fetch id) (s.loadTemplate template)
  | loadDocument (raw : Option String) : Effect s (.loadDocument raw) (s.loadDocument raw)
  | fetchDocument (fetch : DocumentKey → Except FormError (Option String)) (key : DocumentKey)
      (raw : Option String) : Effect s (.fetchDocument fetch key) (s.loadDocument raw)
  | setStep (step : Option String) : Effect s (.setStep step) (s.setStep step)
  | setValue (id : String) (v : Json) (controls : ControlSet) (set : s.controls.set? id v = some controls) :
    Effect s (.setValue id v) { s with controls }.reconcile.settle
  | touch (id : String) :
    Effect s (.touch id) { s with controls := s.controls.modify id Control.touch }
  | addInstance (key : String) (registry : Registry) (added : s.registry.add? key = some registry) :
    Effect s (.addInstance key) ({ s with registry }.rebuild s.controls.snapshot)
  | removeInstance (key : String) (index : Nat) (r : Removal) (registry : Registry)
      (removed : s.registry.remove? key index = some (r, registry)) :
    Effect s (.removeInstance key index)
      ({ s with
          registry
          stored := r.shift s.stored
          selections := r.shift s.selections }.rebuild (r.shift s.controls.snapshot))
  | askForChoices : Effect s .askForChoices s.askForChoices.2
  | missedChoices (generation : Nat) (source : String) (response : Response)
      (late : generation ≠ s.catalog.generation) :
    Effect s (.receiveChoices generation source response) s
  | receiveChoices (source : String) (response : Response) :
    Effect s (.receiveChoices s.catalog.generation source response)
      { s with catalog := s.catalog.take s.config source response }.reconcile.settle
  | resolveChoices (fetch : String → List String → Response) :
    Effect s (.resolveChoices fetch) (s.resolveChoices fetch).2
  | select (id : String) (selected : Json) (field : PlacedField) (lookup : Lookup) (controls : ControlSet)
      (taken : lookup.select? s.config field selected s.controls = some controls) :
    Effect s (.select id selected)
      { s with controls, selections := Table.insert id selected s.selections }.reconcile.settle
  | deselect (id : String) (field : PlacedField) (lookup : Lookup) (controls : ControlSet)
      (taken : lookup.clear? field s.controls = some controls) :
    Effect s (.deselect id) { s with controls, selections := Table.erase id s.selections }.settle
  | commitSaved (document : Fields) : Effect s (.commitSaved document) (s.commitSaved document)
  | save (store : DocumentKey → Fields → String → Except FormError Unit) (key : DocumentKey)
      (document : Fields) (ready : s.prepareSave = .ok document) :
    Effect s (.save store key) (s.commitSaved document)

/-- Every operation has one of these effects. -/
theorem effect_run (s : Session) (operation : Operation) : s.Effect operation (s.run operation) := by
  cases operation with
  | passTime now => exact .passTime now
  | setOperator operator => exact .setOperator operator
  | loadTemplate template => exact .loadTemplate template
  | fetchTemplate fetch id => exact orUnchanged_map_of (.refused _ rfl) fun _ _ => .fetchTemplate fetch id _
  | loadDocument raw => exact .loadDocument raw
  | fetchDocument fetch key =>
    exact orUnchanged_map_of (.refused _ rfl) fun raw _ => .fetchDocument fetch key raw
  | setStep step => exact .setStep step
  | setValue id v =>
    refine orUnchanged_map_of (.refused _ rfl) fun _ done => ?_
    obtain ⟨controls, set, -, after⟩ := setValue_eq_ok_iff.1 done
    exact after ▸ .setValue id v controls set
  | touch id =>
    refine orUnchanged_of (.refused _ rfl) fun _ done => ?_
    obtain ⟨-, rfl⟩ := touch_eq_ok_iff.1 done
    exact .touch id
  | addInstance key =>
    refine getD_of (.refused _ rfl) fun _ done => ?_
    obtain ⟨registry, added, rfl⟩ := Option.map_eq_some_iff.1 done
    exact .addInstance key registry added
  | removeInstance key index =>
    refine getD_of (.refused _ rfl) fun _ done => ?_
    obtain ⟨⟨r, registry⟩, removed, rfl⟩ := Option.map_eq_some_iff.1 done
    exact .removeInstance key index r registry removed
  | askForChoices => exact .askForChoices
  | receiveChoices generation source response =>
    rw [run, Session.receiveChoices, Catalog.receive?]
    by_cases now : generation = s.catalog.generation
    · rw [if_pos now, now]
      exact .receiveChoices source response
    · rw [if_neg now]
      exact .missedChoices generation source response now
  | resolveChoices fetch => exact .resolveChoices fetch
  | select id selected =>
    refine orUnchanged_map_of (.refused _ rfl) fun _ done => ?_
    obtain ⟨field, lookup, controls, -, taken, -, after⟩ := select_eq_ok_iff.1 done
    exact after ▸ .select id selected field lookup controls taken
  | deselect id =>
    refine orUnchanged_map_of (.refused _ rfl) fun _ done => ?_
    obtain ⟨field, lookup, controls, -, taken, -, after⟩ := deselect_eq_ok_iff.1 done
    exact after ▸ .deselect id field lookup controls taken
  | commitSaved document => exact .commitSaved document
  | save store key =>
    refine orUnchanged_map_of (.refused _ rfl) fun _ done => ?_
    obtain ⟨ready, -, after⟩ := save_eq_ok_iff.1 done
    exact after ▸ .save store key _ ready

end Session

end Formwork
