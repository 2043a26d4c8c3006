import Formwork.Proofs.Filling
import Formwork.Proofs.Session.Sorted
import Formwork.Proofs.Session.Trails

/-!
# The objects behind labels

The object selected in a lookup control is kept beside the value of the control, and its text is shown as long as
it is kept. It goes when the selection is taken back or the form is loaded anew, and moves when an instance is
removed. What becomes of the value does not matter to it: a control that is emptied in any other way is still
shown with the text of what was last selected in it.
-/
namespace Formwork

/-- What can happen to the objects that are selected. -/
inductive Turn where
  | keep
  | forget
  | shift (r : Removal)
  | choose (id : String) (selected : Json)
  | drop (id : String)

namespace Turn

/-- The selections after the turn. -/
def apply : Turn → Selections → Selections
  | keep, t => t
  | forget, _ => []
  | shift r, t => r.shift t
  | choose id selected, t => Table.insert id selected t
  | drop id, t => Table.erase id t

/-- The control for which an object that was selected before is kept after the turn. -/
def carry? : Turn → String → Option String
  | keep, id => some id
  | forget, _ => none
  | shift r, id => r.rename? id
  | choose other _, id => if id = other then none else some id
  | drop other, id => if id = other then none else some id

variable {turn : Turn} {t : Selections} {id later : String} {v : Json}

/-- An object that is kept was selected just now, or was kept before. -/
theorem exists_of_get?_apply (ascending : t.Ascending) (h : Table.get? later (turn.apply t) = some v) :
    turn = .choose later v ∨ ∃ id, turn.carry? id = some later ∧ Table.get? id t = some v := by
  cases turn with
  | keep => exact .inr ⟨later, rfl, h⟩
  | forget => cases h
  | shift r => exact .inr (Removal.exists_of_get?_shift ascending h)
  | choose other w =>
    by_cases same : later = other
    · subst same
      rw [apply, Table.get?_insert_self] at h
      exact .inl (by rw [Option.some.inj h])
    · rw [apply, Table.get?_insert_of_ne same] at h
      exact .inr ⟨later, if_neg same, h⟩
  | drop other =>
    by_cases same : later = other
    · subst same
      rw [apply, Table.get?_erase_self] at h
      cases h
    · rw [apply, Table.get?_erase_of_ne same] at h
      exact .inr ⟨later, if_neg same, h⟩

/-- For a control to which an object is carried there is one afterwards. -/
theorem isSome_get?_apply (there : (Table.get? id t).isSome = true) (carried : turn.carry? id = some later) :
    (Table.get? later (turn.apply t)).isSome = true := by
  cases turn with
  | keep => exact Option.some.inj carried ▸ there
  | forget => cases carried
  | shift r =>
    exact Table.isSome_get?_iff.2 (Removal.mem_names_shift.2 ⟨id, Table.isSome_get?_iff.1 there, carried⟩)
  | choose other w =>
    obtain ⟨apart, same⟩ := Option.ite_none_left_eq_some.1 carried
    obtain rfl := Option.some.inj same
    rwa [apply, Table.get?_insert_of_ne apart]
  | drop other =>
    obtain ⟨apart, same⟩ := Option.ite_none_left_eq_some.1 carried
    obtain rfl := Option.some.inj same
    rwa [apply, Table.get?_erase_of_ne apart]

end Turn

namespace Session

variable {s : Session}

/-- What an operation does to the objects that are selected. -/
def turn (s : Session) : Operation → Turn
  | .loadTemplate _ | .loadDocument _ | .setStep _ => .forget
  | .fetchTemplate fetch id =>
    match fetch id with
    | .ok _ => .forget
    | .error _ => .keep
  | .fetchDocument fetch key =>
    match fetch key with
    | .ok _ => .forget
    | .error _ => .keep
  | .removeInstance key index =>
    match s.registry.remove? key index with
    | some removed => .shift removed.1
    | none => .keep
  | .select id selected =>
    match s.lookup id with
    | .ok _ => .choose id selected
    | .error _ => .keep
  | .deselect id =>
    match s.lookup id with
    | .ok _ => .drop id
    | .error _ => .keep
  | .passTime _ | .setOperator _ | .setValue .. | .touch _ | .addInstance _ | .askForChoices
  | .receiveChoices .. | .resolveChoices _ | .commitSaved _ | .save .. => .keep

@[simp] theorem selections_rebuild (before : Fields) (s : Session) :
    (s.rebuild before).selections = s.selections :=
  selections_settle _

theorem selections_loadTemplate (template : Template) (s : Session) :
    (s.loadTemplate template).selections = [] :=
  selections_rebuild _ _

theorem selections_loadDocument (raw : Option String) (s : Session) :
    (s.loadDocument raw).selections = [] :=
  selections_rebuild _ _

theorem Reachable.selections_select (h : Reachable s) (id : String) (selected : Json) :
    (s.run (.select id selected)).selections = (s.turn (.select id selected)).apply s.selections := by
  rw [turn, Session.run]
  cases found : s.lookup id with
  | error e =>
    rw [Session.select, found]
    rfl
  | ok pair =>
    obtain ⟨controls, taken, -⟩ := pair.2.exists_enter (h.mem_ids_of_lookup found)
      (pair.2.storedValue s.config selected) fun fill => (selected.atPath? fill.source).getD .null
    rw [select_eq_ok_iff.2 ⟨_, _, controls, found, taken, rfl, rfl⟩]
    exact selections_settle _

theorem Reachable.selections_deselect (h : Reachable s) (id : String) :
    (s.run (.deselect id)).selections = (s.turn (.deselect id)).apply s.selections := by
  rw [turn, Session.run]
  cases found : s.lookup id with
  | error e =>
    rw [Session.deselect, found]
    rfl
  | ok pair =>
    obtain ⟨controls, taken, -⟩ := pair.2.exists_clear? (h.mem_ids_of_lookup found)
    rw [deselect_eq_ok_iff.2 ⟨_, _, controls, found, taken, rfl, rfl⟩]
    exact selections_settle _

/-- What becomes of the objects that are selected is settled by the operation, whatever happens to values. -/
theorem Reachable.selections_run (h : Reachable s) (operation : Operation) :
    (s.run operation).selections = (s.turn operation).apply s.selections := by
  cases operation with
  | passTime | askForChoices | commitSaved => rfl
  | setOperator => exact selections_rebuild _ _
  | loadTemplate template => exact selections_loadTemplate template s
  | loadDocument raw => exact selections_loadDocument raw s
  | setStep step => exact selections_rebuild _ _
  | fetchTemplate fetch id =>
    rw [turn, Session.run, Session.fetchTemplate]
    cases fetch id with
    | error e => rfl
    | ok text => exact selections_loadTemplate _ s
  | fetchDocument fetch key =>
    rw [turn, Session.run, Session.fetchDocument]
    cases fetch key with
    | error e => rfl
    | ok raw => exact selections_loadDocument raw s
  | addInstance key =>
    rw [turn, Session.run, Session.addInstance?]
    cases s.registry.add? key with
    | none => rfl
    | some registry => exact selections_rebuild _ _
  | removeInstance key index =>
    rw [turn, Session.run, Session.removeInstance?]
    cases s.registry.remove? key index with
    | none => rfl
    | some removed => exact selections_rebuild _ _
  | resolveChoices => exact selections_settle _
  | select id selected => exact h.selections_select id selected
  | deselect id => exact h.selections_deselect id
  | setValue id v =>
    have effect := s.effect_run (.setValue id v)
    generalize s.run (.setValue id v) = t at effect ⊢
    cases effect with
    | refused => rfl
    | setValue => exact selections_settle _
  | receiveChoices generation source response =>
    have effect := s.effect_run (.receiveChoices generation source response)
    generalize s.run (.receiveChoices generation source response) = t at effect ⊢
    cases effect with
    | refused | missedChoices => rfl
    | receiveChoices => exact selections_settle _
  | touch id =>
    have effect := s.effect_run (.touch id)
    generalize s.run (.touch id) = t at effect ⊢
    cases effect <;> rfl
  | save store key =>
    have effect := s.effect_run (.save store key)
    generalize s.run (.save store key) = t at effect ⊢
    cases effect <;> rfl

/-- In the course of the operations the object was selected in the control that now has the identifier, and the
selection was neither taken back nor lost since. -/
inductive Chosen (first : Session) : List Operation → String → Json → Prop
  | chosen {before : List Operation} {operation : Operation} {id : String} {selected : Json}
      (turn : (first.runAll before).turn operation = .choose id selected) :
      Chosen first (before ++ [operation]) id selected
  | carried {before : List Operation} {operation : Operation} {id later : String} {selected : Json}
      (earlier : Chosen first before id selected)
      (carried : ((first.runAll before).turn operation).carry? id = some later) :
      Chosen first (before ++ [operation]) later selected

theorem runAll_concat (s : Session) (before : List Operation) (operation : Operation) :
    s.runAll (before ++ [operation]) = (s.runAll before).run operation :=
  runAll_append s before [operation]

section

variable {first : Session} {operations : List Operation} {id : String} {selected : Json}
  (h : Reachable first)

include h

/-- Every object that is kept was selected in the course of the operations. -/
theorem Reachable.chosen_of_get? (fresh : first.selections = [])
    (kept : Table.get? id (first.runAll operations).selections = some selected) :
    first.Chosen operations id selected := by
  induction operations using List.reverseRecOn generalizing id with
  | nil =>
    rw [show first.runAll [] = first from rfl, fresh] at kept
    cases kept
  | append_singleton before operation ih =>
    have reachable := h.runAll before
    rw [runAll_concat, reachable.selections_run] at kept
    rcases Turn.exists_of_get?_apply reachable.sorted.selections kept with turn | ⟨id, carried, there⟩
    · exact .chosen turn
    · exact .carried (ih there) carried

/-- For a control in which an object was selected there is one that is kept. -/
theorem Reachable.isSome_of_chosen (chosen : first.Chosen operations id selected) :
    (Table.get? id (first.runAll operations).selections).isSome = true := by
  induction chosen with
  | @chosen before operation id selected turn =>
    rw [runAll_concat, (h.runAll before).selections_run, turn, Turn.apply, Table.get?_insert_self]
    rfl
  | @carried before operation id later selected earlier carried ih =>
    rw [runAll_concat, (h.runAll before).selections_run]
    exact Turn.isSome_get?_apply ih carried

end

/-- The label of an empty lookup control is that of an object selected in it, and there is none just if there is no
such object. -/
theorem displayText?_of_empty {now : String} {config : Config} {template : Template}
    {operations : List Operation} (run : s = (start now config template).runAll operations) {id : String}
    {field : PlacedField} {lookup : Lookup} (found : s.lookup id = .ok (field, lookup))
    (empty : ∀ v ∈ s.controls.value? id, v.isFilled = false) :
    (s.displayText? id = none ↔ ∀ selected, ¬(start now config template).Chosen operations id selected) ∧
      ∀ text, s.displayText? id = some text →
        ∃ selected, (start now config template).Chosen operations id selected ∧
          text = lookup.display s.config selected := by
  have reachable : Reachable (start now config template) := .start ..
  have fresh : (start now config template).selections = [] := selections_rebuild _ _
  have label : s.displayText? id = (Table.get? id s.selections).map (lookup.display s.config) := by
    have none : (s.controls.value? id).filter Json.isFilled = none := by
      simpa [Option.filter_eq_none_iff] using empty
    rw [displayText?, selectionText?, found, none]
    exact Option.or_none
  rw [label]
  constructor
  · rw [Option.map_eq_none_iff]
    constructor
    · intro absent selected chosen
      have there := reachable.isSome_of_chosen chosen
      rw [← run, absent] at there
      cases there
    · intro never
      refine Option.eq_none_iff_forall_ne_some.2 fun selected kept => ?_
      exact never selected (reachable.chosen_of_get? fresh (run ▸ kept))
  · intro text shown
    obtain ⟨selected, kept, rfl⟩ := Option.map_eq_some_iff.1 shown
    exact ⟨selected, reachable.chosen_of_get? fresh (run ▸ kept), rfl⟩

def ann : Json := Json.object [("id", Json.ofNat 7), ("name", .str "Ann")]

/-- A person is selected, and the selection is taken back. -/
def takenBack : List Operation := [.select "person" ann, .deselect "person"]

/-- A person is selected, and then the control is given no value. -/
def emptied : List Operation := [.select "person" ann, .setValue "person" .null]

/-- A selection that is taken back leaves no label. -/
theorem displayText?_of_empty_contact :
    (∃ field lookup, (contact.runAll takenBack).lookup "person" = .ok (field, lookup)) ∧
      (∀ v ∈ (contact.runAll takenBack).controls.value? "person", v.isFilled = false) ∧
      ∀ selected, ¬contact.Chosen takenBack "person" selected := by
  obtain ⟨⟨field, lookup⟩, there, -⟩ :
      ∃ found ∈ ((contact.runAll takenBack).lookup "person").toOption, True := by
    decide +kernel
  have found := lookup_of_mem_toOption there
  have empty : ∀ v ∈ (contact.runAll takenBack).controls.value? "person", v.isFilled = false := by
    decide +kernel
  have label : (contact.runAll takenBack).displayText? "person" = none := by
    decide +kernel
  exact ⟨⟨field, lookup, found⟩, empty, (displayText?_of_empty rfl found empty).1.1 label⟩

/-- A person who was selected is still shown when the control has no value. -/
theorem displayText?_lingers_contact :
    (contact.runAll emptied).Reachable ∧
      (∃ field lookup, (contact.runAll emptied).lookup "person" = .ok (field, lookup)) ∧
      (∀ v ∈ (contact.runAll emptied).controls.value? "person", v.isFilled = false) ∧
      (contact.runAll emptied).displayText? "person" = some "Ann" := by
  obtain ⟨⟨field, lookup⟩, there, -⟩ :
      ∃ found ∈ ((contact.runAll emptied).lookup "person").toOption, True := by
    decide +kernel
  refine ⟨Reachable.runAll (.start ..) _, ⟨field, lookup, lookup_of_mem_toOption there⟩, ?_, ?_⟩
  · decide +kernel
  · decide +kernel

end Session

end Formwork
