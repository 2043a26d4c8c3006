import Formwork.Proofs.Session.Binding
import Formwork.Proofs.Settling

/-!
# What is accepted for saving

In a form that can be reached, the flags of each control say what the conditions, the template and the
dependencies ask for. A document accepted for saving is therefore clean and complete: it holds the value
of every control that holds data, none that counts where a field is not to be in view, and one wherever
a field has to be filled in. Everything else is as it was.
-/
namespace Formwork.Session

variable {s : Session}

structure Shows (wanted : Bool) (c : Control) : Prop where
  visible : c.visible = wanted
  disabled : c.disabled = !c.shouldEnable
  clean : c.losesValue wanted = false

theorem shows_present (visible : Bool) (c : Control) : Shows visible (c.present visible) := by
  refine ⟨?_, ?_, c.losesValue_present visible⟩
  · unfold Control.present
    dsimp only
    split <;> rfl
  · unfold Control.present
    dsimp only
    split <;> rfl

/-- In a settled form every control shows what the plan asks for. -/
theorem Standing.shows (h : s.Standing) {b : BoundControl} (hb : b ∈ s.controls) {visible : Bool}
    (entry : Table.get? b.id s.wanted = some visible) : Shows visible b.state := by
  have settled := congrArg Session.controls (h.quiet.round h.bound)
  rw [h.fixed] at settled
  rw [settled] at hb
  obtain ⟨before, -, rfl⟩ := List.mem_map.1 hb
  have same : (before.presentBy s.wanted).id = before.id := (before.presentBy_fades s.wanted).1
  rw [same] at entry
  rw [BoundControl.presentBy_of_some entry]
  exact shows_present visible before.state

theorem Standing.shows_of_mem (h : s.Standing) {b : BoundControl} (hb : b ∈ s.controls) :
    ∃ wanted, Shows wanted b.state := by
  have named : b.id ∈ s.wanted.map (·.1) := by
    rw [wanted, FormTree.map_fst_plan_fields, ← h.bound.ids]
    exact List.mem_map_of_mem hb
  cases entry : Table.get? b.id s.wanted with
  | none => exact absurd named (Table.get?_eq_none_iff.1 entry)
  | some visible => exact ⟨visible, h.shows hb entry⟩

structure Keeps (s : Session) (p : Placement) (c : Control) : Prop where
  found : s.controls.get? p.field.controlId = some c
  required : c.required = (p.field.field.required && !p.field.field.kind.isDecorative)
  templateEnabled : c.templateEnabled = p.field.field.isEnabled
  shows : Shows (p.isShown s.controls) c

theorem Standing.keeps (h : s.Standing) {p : Placement} (hp : p ∈ s.tree.placements) :
    ∃ c, Keeps s p c := by
  obtain ⟨b, hb, cast, found⟩ := h.control (FormTree.field_mem_of_mem_placements hp)
  have id : b.id = p.field.controlId := congrArg Cast.id cast
  have entry : Table.get? b.id s.wanted = some (p.isShown s.controls) := by
    refine Table.get?_of_mem (h.bound.once s.controls) ?_
    rw [FormTree.plan_fields, id]
    exact List.mem_map.2 ⟨p, hp, rfl⟩
  exact ⟨b.state, found, congrArg Cast.required cast, congrArg Cast.templateEnabled cast,
    h.shows hb entry⟩

/-- A control that shows what it ought to is invalid just if it has to be filled in and is not. -/
theorem Shows.isValid_eq_false_iff {wanted : Bool} {c : Control} (h : Shows wanted c) :
    c.isValid = false ↔ c.required = true ∧ c.visible = true ∧ c.templateEnabled = true ∧
      c.dependencyLocked = false ∧ c.value.isFilled = false := by
  unfold Control.isValid
  rw [h.disabled]
  cases hr : c.required <;> cases hv : c.visible <;> cases ht : c.templateEnabled <;>
    cases hl : c.dependencyLocked <;> simp [Control.shouldEnable, hv, ht, hl]

/-- Nothing is missing just if every control is valid. -/
theorem violations_eq_nil_iff :
    s.violations = [] ↔ ∀ p ∈ s.tree.fields, ∀ c, s.controls.get? p.controlId = some c →
      c.isValid = true := by
  rw [violations, List.map_eq_nil_iff, List.filter_eq_nil_iff]
  refine forall₂_congr fun p _ => ?_
  cases s.controls.get? p.controlId <;> simp

/-- Where nothing is missing, the document to save is the stored one with the current values in it. -/
theorem prepareSave_eq_ok_iff {document : Fields} :
    s.prepareSave = .ok document ↔ s.violations = [] ∧ document = s.mergedDocument := by
  unfold prepareSave
  cases s.violations with
  | nil => simp [eq_comm]
  | cons first rest => simp

theorem prepareSave_eq_error_iff :
    (∃ e, s.prepareSave = .error e) ↔ s.violations ≠ [] := by
  unfold prepareSave
  cases s.violations with
  | nil => simp
  | cons first rest => simp

/-- The identifiers of the controls that hold data, with their values, in document order. -/
def heldValues (s : Session) : List (String × Json) :=
  s.tree.fields.filterMap fun p =>
    if p.field.kind.isDecorative then none
    else (s.controls.value? p.controlId).map fun v => (p.controlId, v)

theorem currentValues_eq (s : Session) : s.currentValues = Table.ofPairs s.heldValues := rfl

theorem ascending_currentValues (s : Session) : Table.Ascending s.currentValues :=
  Table.ascending_ofPairs _

theorem nodup_names_heldValues (h : s.Founded) : (Table.names s.heldValues).Nodup := by
  have sub : (Table.names s.heldValues).Sublist (s.tree.fields.map (·.controlId)) := by
    unfold heldValues
    generalize s.tree.fields = fields
    induction fields with
    | nil => exact .slnil
    | cons p fields ih =>
      rw [List.filterMap_cons, List.map_cons]
      split
      · exact .cons _ ih
      · rename_i e entry
        split at entry
        · cases entry
        · obtain ⟨v, -, rfl⟩ := Option.map_eq_some_iff.1 entry
          exact .cons_cons _ ih
  exact h.laidOut.distinct.sublist sub

/-- The document holds the value of a control that holds data. -/
theorem get?_mergedDocument (h : s.Founded) {p : PlacedField} (hp : p ∈ s.tree.fields)
    (data : p.field.kind.isDecorative = false) {c : Control}
    (found : s.controls.get? p.controlId = some c) :
    Table.get? p.controlId s.mergedDocument = some c.value := by
  have current : Table.get? p.controlId s.currentValues = some c.value := by
    rw [currentValues_eq, Table.get?_ofPairs (nodup_names_heldValues h)]
    refine Table.get?_of_mem (nodup_names_heldValues h) (List.mem_filterMap.2 ⟨p, hp, ?_⟩)
    simp [data, ControlSet.value?_of_get? found]
  rw [mergedDocument, Document.merge, Table.get?_override s.ascending_currentValues, current]
  rfl

/-- Any other part of the document is that of the stored one. -/
theorem get?_mergedDocument_of_ne {key : String}
    (absent : ∀ p ∈ s.tree.fields, p.field.kind.isDecorative = false → p.controlId ≠ key) :
    Table.get? key s.mergedDocument = Table.get? key s.stored := by
  have current : Table.get? key s.currentValues = none := by
    rw [Table.get?_eq_none_iff, currentValues_eq, Table.mem_names_ofPairs]
    intro named
    obtain ⟨e, he, rfl⟩ := List.mem_map.1 named
    obtain ⟨p, hp, entry⟩ := List.mem_filterMap.1 he
    split at entry
    · cases entry
    · rename_i data
      obtain ⟨v, -, rfl⟩ := Option.map_eq_some_iff.1 entry
      exact absent p hp (by simpa using data) rfl
  rw [mergedDocument, Document.merge, Table.get?_override s.ascending_currentValues, current]
  rfl

/-- What a document accepted for saving says of a field that holds data: it has the value of the control,
which does not count if the field is not to be in view, and is there if the field has to be filled in. -/
structure Accepts (s : Session) (document : Fields) (p : Placement) (c : Control) : Prop where
  found : s.controls.get? p.field.controlId = some c
  value : Table.get? p.field.controlId document = some c.value
  visible : c.visible = p.isShown s.controls
  clean : p.isShown s.controls = false → c.value.isTruthy = false
  complete : p.field.field.required = true → c.visible = true → p.field.field.isEnabled = true →
    c.dependencyLocked = false → c.value.isFilled = true

theorem Standing.accepts (h : s.Standing) (complete : s.violations = []) {p : Placement}
    (hp : p ∈ s.tree.placements) (data : p.field.field.kind.isDecorative = false) :
    ∃ c, s.Accepts s.mergedDocument p c := by
  obtain ⟨c, kept⟩ := h.keeps hp
  have field := FormTree.field_mem_of_mem_placements hp
  refine ⟨c, kept.found, get?_mergedDocument h.toFounded field data kept.found, kept.shows.visible,
    ?_, ?_⟩
  · intro hidden
    have clean := kept.shows.clean
    rwa [hidden, Control.losesValue, Bool.not_false, Bool.true_and] at clean
  · intro required visible enabled unlocked
    have valid := violations_eq_nil_iff.1 complete p.field field c kept.found
    by_contra empty
    have invalid : c.isValid = false := by
      rw [kept.shows.isValid_eq_false_iff, kept.required, kept.templateEnabled]
      exact ⟨by simp [required, data], visible, enabled, unlocked, by simpa using empty⟩
    rw [invalid] at valid
    cases valid

/-- Something is missing just if a control has to be filled in and is not. -/
theorem Standing.violations_ne_nil_iff (h : s.Standing) :
    s.violations ≠ [] ↔
      ∃ b ∈ s.controls, b.state.required = true ∧ b.state.visible = true ∧
        b.state.templateEnabled = true ∧ b.state.dependencyLocked = false ∧
        b.state.value.isFilled = false := by
  rw [Ne, violations_eq_nil_iff]
  constructor
  · intro missing
    simp only [not_forall] at missing
    obtain ⟨p, hp, c, found, invalid⟩ := missing
    obtain ⟨b, hb, -, state⟩ := h.control hp
    obtain rfl := Option.some.inj (found.symm.trans state)
    obtain ⟨wanted, shows⟩ := h.shows_of_mem hb
    exact ⟨b, hb, shows.isValid_eq_false_iff.1 (by simpa using invalid)⟩
  · rintro ⟨b, hb, missing⟩ valid
    obtain ⟨p, hp, id⟩ := h.field_of_mem hb
    obtain ⟨wanted, shows⟩ := h.shows_of_mem hb
    have found : s.controls.get? p.controlId = some b.state := by
      rw [id]
      exact ControlSet.get?_of_mem h.bound.distinct hb
    have invalid := shows.isValid_eq_false_iff.2 missing
    rw [valid p hp b.state found] at invalid
    cases invalid

/-- A document accepted for saving is clean and complete and leaves the rest of the stored one alone.
Saving is refused only for a control that has to be filled in and is not. -/
theorem prepareSave_clean_and_complete (h : s.Reachable) :
    (∀ document, s.prepareSave = .ok document →
      (∀ p ∈ s.tree.placements, p.field.field.kind.isDecorative = false →
        ∃ c, s.Accepts document p c) ∧
      ∀ key, (∀ p ∈ s.tree.fields, p.field.kind.isDecorative = false → p.controlId ≠ key) →
        Table.get? key document = Table.get? key s.stored) ∧
    ((∃ e, s.prepareSave = .error e) ↔
      ∃ b ∈ s.controls, b.state.required = true ∧ b.state.visible = true ∧
        b.state.templateEnabled = true ∧ b.state.dependencyLocked = false ∧
        b.state.value.isFilled = false) := by
  have standing := h.standing
  constructor
  · intro document accepted
    obtain ⟨complete, rfl⟩ := prepareSave_eq_ok_iff.1 accepted
    exact ⟨fun p hp data => standing.accepts complete hp data,
      fun key absent => get?_mergedDocument_of_ne absent⟩
  · rw [prepareSave_eq_error_iff]
    exact standing.violations_ne_nil_iff

/-- A text that has to be filled in where it is in view. -/
def demanded (id : String) (conditions : List Condition) : Field :=
  { choiceOf id .null with kind := .text, dataSource := none, required := true, conditions := conditions }

/-- A stay with a partner in its stored document, who is asked for only if the guest does not come alone. -/
def booked : Session :=
  (Session.start "" {} ⟨none, [⟨"Stay", none, none, none,
    [{ choiceOf "company" (.str "none") with dataSource := none }, demanded "guest" [],
      demanded "partner" [⟨some "company", .notEquals, .str "none", .and⟩]], [], [],
    ⟨.always, none, .null⟩, true, none, []⟩], [], []⟩).run
    (.loadDocument (some "\x7b\"partner\":\"Bob\",\"room\":\"blue\"\x7d"))

def confirmed : Session := booked.run (.setValue "guest" (.str "Ann"))

theorem reachable_booked : booked.Reachable := (Reachable.start ..).run _

/-- Without the guest the stay cannot be saved. With the guest it is: the partner has to be filled in too,
but is not in view, and does not count in the document any more. -/
theorem prepareSave_of_booked :
    booked.Reachable ∧ (∃ e, booked.prepareSave = .error e) ∧ confirmed.Reachable ∧
      ∃ document, confirmed.prepareSave = .ok document ∧
        (∃ p ∈ confirmed.tree.placements, p.field.controlId = "guest" ∧
          p.isShown confirmed.controls = true ∧ p.field.field.required = true ∧
          ∃ c, confirmed.Accepts document p c ∧ c.value.isFilled = true) ∧
        (∃ p ∈ confirmed.tree.placements, p.field.controlId = "partner" ∧
          p.isShown confirmed.controls = false ∧ p.field.field.required = true ∧
          ∃ c, confirmed.Accepts document p c ∧ c.value.isTruthy = false) ∧
        (Table.get? "partner" booked.stored).bind Json.text? = some "Bob" ∧
        Table.get? "room" document = Table.get? "room" confirmed.stored := by
  have reachable : confirmed.Reachable := reachable_booked.run _
  obtain ⟨-, refused⟩ := prepareSave_clean_and_complete reachable_booked
  obtain ⟨kept, -⟩ := prepareSave_clean_and_complete reachable
  have accepted : confirmed.prepareSave = .ok confirmed.mergedDocument :=
    prepareSave_eq_ok_iff.2 ⟨by decide +kernel, rfl⟩
  obtain ⟨holds, others⟩ := kept _ accepted
  refine ⟨reachable_booked, refused.2 (by decide +kernel), reachable, _, accepted, ?_, ?_, ?_, ?_⟩
  · obtain ⟨p, hp, id, shown, required, data, enabled⟩ : ∃ p ∈ confirmed.tree.placements,
        p.field.controlId = "guest" ∧ p.isShown confirmed.controls = true ∧
          p.field.field.required = true ∧ p.field.field.kind.isDecorative = false ∧
          p.field.field.isEnabled = true := by
      decide +kernel
    have unlocked : ∀ c ∈ confirmed.controls.get? "guest", c.dependencyLocked = false := by
      decide +kernel
    obtain ⟨c, accepts⟩ := holds p hp data
    exact ⟨p, hp, id, shown, required, c, accepts,
      accepts.complete required (accepts.visible.trans shown) enabled (unlocked c (id ▸ accepts.found))⟩
  · obtain ⟨p, hp, id, hidden, required, data⟩ : ∃ p ∈ confirmed.tree.placements,
        p.field.controlId = "partner" ∧ p.isShown confirmed.controls = false ∧
          p.field.field.required = true ∧ p.field.field.kind.isDecorative = false := by
      decide +kernel
    obtain ⟨c, accepts⟩ := holds p hp data
    exact ⟨p, hp, id, hidden, required, c, accepts, accepts.clean hidden⟩
  · decide +kernel
  · exact others "room" (by decide +kernel)

end Formwork.Session
