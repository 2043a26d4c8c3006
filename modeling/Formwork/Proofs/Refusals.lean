import Formwork.Proofs.Removal
import Formwork.Proofs.Session.Binding
import Formwork.Session.InPlace
import Mathlib.Data.List.Nodup

/-!
# What is refused leaves no trace

An operation that is done in place may stop after it has written something. It never does: whatever can be
wrong with it is found before the first write, and the writes that come later all hit controls that are there.
-/
namespace Formwork

/-- A reference means a control that is there. -/
theorem ControlSet.mem_ids_of_resolve? {raw id : String} {scope : Scope} {s : ControlSet}
    (h : s.resolve? raw scope = some id) : id ∈ s.ids := by
  unfold resolve? at h
  split at h
  · rename_i f found
    obtain rfl := Option.some.inj h
    have there := List.find?_some found
    exact has_eq_true_iff.1 (by simpa using there)
  · obtain ⟨b, found, rfl⟩ := Option.map_eq_some_iff.1 h
    exact List.mem_map_of_mem (List.mem_of_find?_eq_some found)

/-- The field that is found for a control is one of the form, and it is that of the control. -/
theorem FormTree.mem_fields_of_field? {id : String} {field : PlacedField} {tree : FormTree}
    (found : tree.field? id = some field) : field ∈ tree.fields ∧ field.controlId = id := by
  have named := List.find?_some found
  exact ⟨List.mem_of_find?_eq_some found, of_decide_eq_true named⟩

theorem Session.field?_of_lookup {id : String} {field : PlacedField} {lookup : Lookup} {s : Session}
    (found : s.lookup id = .ok (field, lookup)) : s.tree.field? id = some field := by
  unfold Session.lookup at found
  split at found
  · cases found
  · rename_i there
    split at found
    · cases found
    · obtain ⟨rfl, -⟩ := Prod.mk.inj (Except.ok.inj found)
      exact there

namespace InPlace

variable {α β : Type} {s t : Session} {x : InPlace α} {f : α → InPlace β} {a : α} {e : FormError}

theorem run_bind_of_ok (done : x.run s = .ok a t) : (x >>= f).run s = (f a).run t := by
  simp only [EStateM.run, bind, EStateM.bind] at done ⊢
  rw [done]

theorem run_bind_of_error (stopped : x.run s = .error e t) : (x >>= f).run s = .error e t := by
  simp only [EStateM.run, bind, EStateM.bind] at stopped ⊢
  rw [stopped]

/-- How something ends in place that takes a session to another one all at once or not at all. -/
def outcome (s : Session) : Except FormError (α × Session) → EStateM.Result FormError Session α
  | .ok (a, t) => .ok a t
  | .error e => .error e s

theorem run_get_bind (f : Session → InPlace α) : (get >>= f).run s = (f s).run s := rfl

variable {id : String} {v selected : Json}

theorem run_write_of_mem (there : id ∈ s.controls.ids) :
    (write id v).run s = .ok () { s with controls := s.controls.modify id (Control.set v) } := by
  rw [write, run_get_bind, ControlSet.set?_eq_some_iff.2 ⟨there, rfl⟩]
  rfl

theorem run_write_of_not_mem (absent : id ∉ s.controls.ids) :
    (write id v).run s = .error (.unknownControl id) s := by
  rw [write, run_get_bind, ControlSet.set?_eq_none_iff.2 absent]
  rfl

/-- No field to fill is missed by the time it is written to. -/
theorem run_fill (value : FillPair → Json) (scope : Scope) (lookup : Lookup) (s : Session) :
    (fill value scope lookup.fill).run s =
      .ok () { s with controls := lookup.fillFrom scope value s.controls } := by
  unfold Lookup.fillFrom
  generalize lookup.fill = pairs
  induction pairs generalizing s with
  | nil => rfl
  | cons pair pairs ih =>
    rw [fill, run_get_bind, List.foldl_cons]
    cases meant : s.controls.resolve? pair.target scope with
    | none => exact ih s
    | some id =>
      simp only
      rw [run_bind_of_ok (run_write_of_mem (ControlSet.mem_ids_of_resolve? meant))]
      exact ih _

/-- Once the first write is done, so are the others. -/
theorem run_enter (field : PlacedField) (lookup : Lookup) (v : Json) (value : FillPair → Json)
    (s : Session) :
    (enter field lookup v value).run s =
      match (s.controls.set? field.controlId v).map (lookup.fillFrom field.scope value) with
      | some controls => .ok () { s with controls }
      | none => .error (.unknownControl field.controlId) s := by
  rw [enter]
  by_cases there : field.controlId ∈ s.controls.ids
  · rw [run_bind_of_ok (run_write_of_mem there), run_fill,
      ControlSet.set?_eq_some_iff.2 ⟨there, rfl⟩]
    rfl
  · rw [run_bind_of_error (run_write_of_not_mem there), ControlSet.set?_eq_none_iff.2 there]
    rfl

/-- What comes after the writes starts with all of them done, or does not start. -/
theorem run_enter_bind (field : PlacedField) (lookup : Lookup) (v : Json) (value : FillPair → Json)
    (f : Unit → InPlace α) (s : Session) :
    (enter field lookup v value >>= f).run s =
      match (s.controls.set? field.controlId v).map (lookup.fillFrom field.scope value) with
      | some controls => (f ()).run { s with controls }
      | none => .error (.unknownControl field.controlId) s := by
  have entered := run_enter field lookup v value s
  split at entered
  · exact run_bind_of_ok entered
  · exact run_bind_of_error entered

theorem run_setValue (s : Session) : (setValue id v).run s = outcome s (s.setValue id v) := by
  rw [setValue, run_get_bind, Session.setValue]
  by_cases there : id ∈ s.controls.ids
  · rw [run_bind_of_ok (run_write_of_mem there), ControlSet.set?_eq_some_iff.2 ⟨there, rfl⟩]
    rfl
  · rw [run_bind_of_error (run_write_of_not_mem there), ControlSet.set?_eq_none_iff.2 there]
    rfl

theorem run_demand_ok (a : α) (s : Session) : (demand (.ok a)).run s = .ok a s := rfl

theorem run_select (s : Session) : (select id selected).run s = outcome s (s.select id selected) := by
  rw [select, run_get_bind, Session.select]
  cases found : s.lookup id with
  | error e => rfl
  | ok pair =>
    obtain ⟨field, lookup⟩ := pair
    obtain ⟨-, rfl⟩ := FormTree.mem_fields_of_field? (Session.field?_of_lookup found)
    rw [run_bind_of_ok (run_demand_ok _ _), run_enter_bind]
    simp only [bind, Except.bind, Lookup.select?]
    cases (s.controls.set? field.controlId (lookup.storedValue s.config selected)).map
      (lookup.fillFrom field.scope fun pair => (selected.atPath? pair.source).getD .null) <;> rfl

theorem run_deselect (s : Session) : (deselect id).run s = outcome s (s.deselect id) := by
  rw [deselect, run_get_bind, Session.deselect]
  cases found : s.lookup id with
  | error e => rfl
  | ok pair =>
    obtain ⟨field, lookup⟩ := pair
    obtain ⟨-, rfl⟩ := FormTree.mem_fields_of_field? (Session.field?_of_lookup found)
    rw [run_bind_of_ok (run_demand_ok _ _), run_enter_bind]
    simp only [bind, Except.bind, Lookup.clear?]
    cases (s.controls.set? field.controlId .null).map
      (lookup.fillFrom field.scope fun _ => .null) <;> rfl

theorem run_touch (s : Session) :
    (touch id).run s = outcome s ((s.touch id).map fun t => ((), t)) := by
  rw [touch, run_get_bind, Session.touch]
  cases s.controls.touch? id <;> rfl

theorem run_fetchTemplate (fetch : String → Except FormError String) (s : Session) :
    (fetchTemplate fetch id).run s = outcome s ((s.fetchTemplate fetch id).map fun t => ((), t)) := by
  rw [fetchTemplate, Session.fetchTemplate]
  cases fetch id <;> rfl

theorem run_fetchDocument (fetch : DocumentKey → Except FormError (Option String)) (key : DocumentKey)
    (s : Session) :
    (fetchDocument fetch key).run s = outcome s ((s.fetchDocument fetch key).map fun t => ((), t)) := by
  rw [fetchDocument, Session.fetchDocument]
  cases fetch key <;> rfl

theorem run_prepareSave (s : Session) :
    prepareSave.run s = outcome s (s.prepareSave.map fun document => (document, s)) := by
  rw [prepareSave, run_get_bind, Session.prepareSave]
  cases s.violations <;> rfl

theorem run_save (store : DocumentKey → Fields → String → Except FormError Unit) (key : DocumentKey)
    (s : Session) : (save store key).run s = outcome s (s.save store key) := by
  have prepared := run_prepareSave s
  rw [save, Session.save]
  cases ready : s.prepareSave with
  | error e =>
    rw [ready] at prepared
    exact run_bind_of_error prepared
  | ok document =>
    rw [ready] at prepared
    rw [run_bind_of_ok prepared, run_get_bind]
    simp only [bind, Except.bind]
    cases stored : store key document (s.operator.getD "") <;> rfl

theorem run_ifAccepted (f : Session → Option Session) (s : Session) :
    (ifAccepted f).run s = outcome s (.ok (.accepted (f s).isSome, (f s).getD s)) := by
  rw [ifAccepted, run_get_bind]
  cases f s <;> rfl

/-- What is made of an outcome ends as the outcome does. -/
theorem exists_outcome_map {result : Except FormError (α × Session)} (h : x.run s = outcome s result)
    (reply : α → β) :
    ∃ result', (reply <$> x).run s = outcome s result' ∧
      s.orUnchanged (result.map (·.2)) = s.orUnchanged (result'.map (·.2)) := by
  refine ⟨result.map fun done => (reply done.1, done.2), ?_, ?_⟩
  · simp only [Functor.map, EStateM.run, EStateM.map] at h ⊢
    rw [h]
    cases result <;> rfl
  · cases result <;> rfl

/-- What gives nothing back but the session ends as it does. -/
theorem exists_outcome_map_unit {x : InPlace Unit} {result : Except FormError Session}
    (h : x.run s = outcome s (result.map fun t => ((), t))) (reply : Unit → β) :
    ∃ result', (reply <$> x).run s = outcome s result' ∧
      s.orUnchanged result = s.orUnchanged (result'.map (·.2)) := by
  obtain ⟨result', done, after⟩ := exists_outcome_map h reply
  refine ⟨result', done, ?_⟩
  rw [← after]
  cases result <;> rfl

/-- In place, an operation is done or refused as it is all at once. -/
theorem exists_outcome_carryOut (operation : Operation) (s : Session) :
    ∃ result, (carryOut operation).run s = outcome s result ∧
      s.run operation = s.orUnchanged (result.map (·.2)) := by
  cases operation with
  | passTime | setOperator | loadTemplate | loadDocument | setStep | commitSaved =>
    exact ⟨.ok (.done, _), rfl, rfl⟩
  | askForChoices | receiveChoices | resolveChoices => exact ⟨.ok (_, _), rfl, rfl⟩
  | addInstance | removeInstance => exact ⟨_, run_ifAccepted _ s, rfl⟩
  | fetchTemplate fetch id => exact exists_outcome_map_unit (run_fetchTemplate fetch s) _
  | fetchDocument fetch key => exact exists_outcome_map_unit (run_fetchDocument fetch key s) _
  | touch id => exact exists_outcome_map_unit (run_touch s) _
  | setValue id v => exact exists_outcome_map (run_setValue s) _
  | select id selected => exact exists_outcome_map (run_select s) _
  | deselect id => exact exists_outcome_map (run_deselect s) _
  | save store key => exact exists_outcome_map (run_save store key s) _

theorem eq_of_outcome {result : Except FormError (α × Session)} (h : x.run s = outcome s result)
    (stopped : x.run s = .error e t) : t = s := by
  rw [h] at stopped
  cases result with
  | ok done => cases stopped
  | error e => exact (EStateM.Result.error.inj stopped).2.symm

theorem exists_error_iff {result : Except FormError (α × Session)} (h : x.run s = outcome s result) :
    (∃ t, x.run s = .error e t) ↔ result = .error e := by
  rw [h]
  cases result with
  | ok done =>
    constructor
    · rintro ⟨t, stopped⟩
      cases stopped
    · intro refused
      cases refused
  | error e' =>
    constructor
    · rintro ⟨t, stopped⟩
      rw [(EStateM.Result.error.inj stopped).1]
    · intro refused
      obtain rfl := Except.error.inj refused
      exact ⟨s, rfl⟩

end InPlace

namespace Session

variable {s : Session} {id : String} {selected : Json} {e : FormError}

/-- Why a control has nothing to do with a lookup: there is no such control in the form, or its field has no
lookup. -/
def RefusesLookup (s : Session) (id : String) (e : FormError) : Prop :=
  e = .unknownControl id ∧ (∀ p ∈ s.tree.fields, p.controlId ≠ id) ∨
    e = .notALookup id ∧
      ∃ p ∈ s.tree.fields, p.controlId = id ∧ Lookup.ofField? s.config p.field = none

theorem lookup_eq_error_iff (distinct : (s.tree.fields.map (·.controlId)).Nodup) :
    s.lookup id = .error e ↔ s.RefusesLookup id e := by
  rw [lookup, RefusesLookup]
  cases found : s.tree.field? id with
  | none =>
    have absent : ∀ p ∈ s.tree.fields, p.controlId ≠ id := by
      simpa [FormTree.field?] using found
    constructor
    · intro refused
      exact .inl ⟨(Except.error.inj refused).symm, absent⟩
    · rintro (⟨rfl, -⟩ | ⟨-, p, hp, named, -⟩)
      · rfl
      · exact absurd named (absent p hp)
  | some field =>
    obtain ⟨there, named⟩ := FormTree.mem_fields_of_field? found
    dsimp only
    cases made : Lookup.ofField? s.config field.field with
    | none =>
      constructor
      · intro refused
        exact .inr ⟨(Except.error.inj refused).symm, field, there, named, made⟩
      · rintro (⟨-, absent⟩ | ⟨rfl, -⟩)
        · exact absurd named (absent field there)
        · rfl
    | some lookup =>
      constructor
      · intro refused
        cases refused
      · rintro (⟨-, absent⟩ | ⟨-, p, hp, same, none⟩)
        · exact absurd named (absent field there)
        · obtain rfl := List.inj_on_of_nodup_map distinct hp there (same.trans named.symm)
          rw [made] at none
          cases none

/-- Every control with a lookup is there to be written to. -/
theorem Reachable.mem_ids_of_lookup (h : Reachable s) {field : PlacedField} {lookup : Lookup}
    (found : s.lookup id = .ok (field, lookup)) : field.controlId ∈ s.controls.ids := by
  rw [h.standing.toFounded.bound.ids]
  exact List.mem_map_of_mem (FormTree.mem_fields_of_field? (field?_of_lookup found)).1

/-- Two steps fail together if the first one fails or the second one does after it. -/
theorem bind_eq_error_iff {α β : Type} {x : Except FormError α} {f : α → Except FormError β} :
    x >>= f = .error e ↔ x = .error e ∨ ∃ a, x = .ok a ∧ f a = .error e := by
  cases x with
  | error e' =>
    constructor
    · intro h
      exact .inl (congrArg Except.error (Except.error.inj h))
    · rintro (h | ⟨a, found, -⟩)
      · exact congrArg Except.error (Except.error.inj h)
      · cases found
  | ok a =>
    constructor
    · intro h
      exact .inr ⟨a, rfl, h⟩
    · rintro (found | ⟨_, found, h⟩)
      · cases found
      · obtain rfl := Except.ok.inj found
        exact h

theorem Reachable.select_eq_error_iff (h : Reachable s) :
    s.select id selected = .error e ↔ s.RefusesLookup id e := by
  rw [select, bind_eq_error_iff, ← lookup_eq_error_iff h.standing.laidOut.distinct]
  constructor
  · rintro (refused | ⟨⟨field, lookup⟩, found, refused⟩)
    · exact refused
    · have set := ControlSet.set?_eq_some_iff (v := lookup.storedValue s.config selected).2
        ⟨h.mem_ids_of_lookup found, rfl⟩
      simp only [Lookup.select?, set, Option.map_some] at refused
      cases refused
  · exact .inl

theorem Reachable.deselect_eq_error_iff (h : Reachable s) :
    s.deselect id = .error e ↔ s.RefusesLookup id e := by
  rw [deselect, bind_eq_error_iff, ← lookup_eq_error_iff h.standing.laidOut.distinct]
  constructor
  · rintro (refused | ⟨⟨field, lookup⟩, found, refused⟩)
    · exact refused
    · have set := ControlSet.set?_eq_some_iff (v := .null).2 ⟨h.mem_ids_of_lookup found, rfl⟩
      simp only [Lookup.clear?, set, Option.map_some] at refused
      cases refused
  · exact .inl

/-- Whatever is refused in place leaves the session as it was, and a selection is refused or not taken back
just where there is no such control in the form or its field has no lookup. -/
theorem carryOut_refused_leaves (h : Reachable s) :
    (∀ operation e t, (InPlace.carryOut operation).run s = .error e t → t = s) ∧
      (∀ e t, InPlace.prepareSave.run s = .error e t → t = s) ∧
      (∀ id selected e, (∃ t, (InPlace.select id selected).run s = .error e t) ↔ s.RefusesLookup id e) ∧
      ∀ id e, (∃ t, (InPlace.deselect id).run s = .error e t) ↔ s.RefusesLookup id e := by
  refine ⟨fun operation e t stopped => ?_, fun e t => ?_, fun id selected e => ?_, fun id e => ?_⟩
  · obtain ⟨result, done, -⟩ := InPlace.exists_outcome_carryOut operation s
    exact InPlace.eq_of_outcome done stopped
  · exact InPlace.eq_of_outcome (InPlace.run_prepareSave s)
  · exact (InPlace.exists_error_iff (InPlace.run_select s)).trans h.select_eq_error_iff
  · exact (InPlace.exists_error_iff (InPlace.run_deselect s)).trans h.deselect_eq_error_iff

/-- A contact, whose mail address is filled in along with the person. -/
def contact : Session :=
  .start "" {} ⟨none, [⟨"Contact", none, none, none,
    [{ textField "person" with
        kind := .search
        lookup := some ⟨some "person", none, some "id", ["name"], [⟨"mail", "mail"⟩], none⟩ },
      textField "mail"], [], [], ⟨.always, none, .null⟩, true, none, []⟩], [], []⟩

/-- Nothing is selected for the mail address itself, which has no lookup, nor taken back from a phone number,
which is not in the form. -/
theorem carryOut_refused_leaves_contact :
    contact.Reachable ∧
      (∃ t, (InPlace.select "mail" .null).run contact = .error (.notALookup "mail") t) ∧
      (∀ e t, (InPlace.carryOut (.select "mail" .null)).run contact = .error e t → t = contact) ∧
      (∃ t, (InPlace.deselect "phone").run contact = .error (.unknownControl "phone") t) ∧
      ∀ e t, (InPlace.prepareSave).run contact = .error e t → t = contact := by
  have reachable : contact.Reachable := .start ..
  obtain ⟨leaves, saved, selects, deselects⟩ := carryOut_refused_leaves reachable
  refine ⟨reachable, ?_, leaves _, ?_, saved⟩
  · exact (selects "mail" .null _).2 (.inr ⟨rfl, _, List.mem_cons_of_mem _ List.mem_cons_self, rfl, rfl⟩)
  · have absent : ∀ p ∈ contact.tree.fields, p.controlId ≠ "phone" := by decide +kernel
    exact (deselects "phone" _).2 (.inl ⟨rfl, absent⟩)

end Session

end Formwork
