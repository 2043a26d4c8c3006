import Formwork.Proofs.Reloading
import Formwork.Proofs.Session.Trails

/-!
# What a form carries forward

The stored document is written over by values of controls and changed by removals, and nothing else is done
to it. So whatever stands in it under a name that no control that holds data has, and that is in no instance
of a group from which one is removed, is still there in every document that is saved.
-/
namespace Formwork

def Operation.bringsDocument : Operation → Bool
  | .loadDocument _ => true
  | .fetchDocument .. => true
  | .commitSaved _ => true
  | _ => false

/-- What was read is in order. -/
theorem Document.ascending_parse (raw : Option String) : (parse raw).Ascending := by
  unfold parse
  split
  · exact Table.ascending_nil
  · split
    · rename_i members read
      obtain ⟨w, -, value⟩ := Option.bind_eq_some_iff.1 read
      cases w with
      | object written =>
        rw [Json.ofWritten?] at value
        split at value
        · cases value
        · obtain ⟨pairs, -, same⟩ := Option.map_eq_some_iff.1 value
          obtain rfl := Json.obj.inj same
          exact Table.ascending_ofPairs pairs
      | array items =>
        rw [Json.ofWritten?] at value
        split at value <;> simp at value
      | _ => simp [Json.ofWritten?] at value
    · exact Table.ascending_nil

/-- A name that reads as no slot keeps what stands under it, and nothing comes to stand under it. -/
theorem Removal.get?_shift_of_ofName?_eq_none {α : Type} {r : Removal} {t : Table α}
    (ascending : t.Ascending) {name : String} (outside : Slot.ofName? r.stem name = none) :
    Table.get? name (r.shift t) = Table.get? name t := by
  have kept : r.rename? name = some name := by
    unfold rename?
    rw [outside]
  refine get?_shift_of_only ascending kept fun other renamed => ?_
  rcases rename?_cases renamed with ⟨-, same⟩ | ⟨s, read, -, -, rfl⟩
  · exact same.symm
  · have small := Slot.index_lt_of_ofName? read
    rw [Slot.ofName?_name r.stem (by dsimp only; omega)] at outside
    cases outside

namespace Session

variable {s t : Session}

/-- The removal that an operation carries out. -/
def removal? (s : Session) : Operation → Option Removal
  | .removeInstance key index => (s.registry.remove? key index).map (·.1)
  | _ => none

@[simp] theorem stored_rebuild (before : Fields) (s : Session) : (s.rebuild before).stored = s.stored :=
  stored_settle _

/-- What an operation does to the stored document, unless it brings another one. -/
inductive Rewrites (s : Session) (operation : Operation) (t : Session) : Prop
  | kept (stored : t.stored = s.stored)
  | merged (stored : t.stored = s.mergedDocument)
  | shifted (r : Removal) (removal : s.removal? operation = some r) (stored : t.stored = r.shift s.stored)

theorem rewrites_run {operation : Operation} (same : operation.bringsDocument = false) :
    s.Rewrites operation (s.run operation) := by
  have effect := s.effect_run operation
  generalize s.run operation = t at effect ⊢
  cases effect with
  | refused => exact .kept rfl
  | passTime => exact .kept rfl
  | setOperator => exact .kept (stored_rebuild _ _)
  | loadTemplate => exact .kept (stored_rebuild _ _)
  | fetchTemplate => exact .kept (stored_rebuild _ _)
  | setStep => exact .merged (stored_rebuild _ _)
  | setValue => exact .kept (stored_settle _)
  | touch => exact .kept rfl
  | addInstance => exact .kept (stored_rebuild _ _)
  | removeInstance key index r registry removed =>
    exact .shifted r (by rw [removal?, removed, Option.map_some]) (stored_rebuild _ _)
  | askForChoices => exact .kept rfl
  | missedChoices => exact .kept rfl
  | receiveChoices => exact .kept (stored_settle _)
  | resolveChoices => exact .kept (stored_settle _)
  | select => exact .kept (stored_settle _)
  | deselect => exact .kept (stored_settle _)
  | save _ _ _ ready => exact .merged (prepareSave_eq_ok_iff.1 ready).2
  | _ => cases same

/-- The session holds under a name what a document has there. -/
structure Carries (document : Fields) (name : String) (s : Session) : Prop where
  ascending : s.stored.Ascending
  stored : Table.get? name s.stored = Table.get? name document

/-- No control that holds data has the name. -/
def Ignores (name : String) (s : Session) : Prop :=
  ∀ p ∈ s.tree.fields, p.field.kind.isDecorative = false → p.controlId ≠ name

variable {document : Fields} {name : String}

theorem Carries.merged (h : s.Carries document name) (ignores : s.Ignores name) :
    Table.get? name s.mergedDocument = Table.get? name document :=
  (get?_mergedDocument_of_ne ignores).trans h.stored

theorem Carries.run (h : s.Carries document name) {operation : Operation}
    (same : operation.bringsDocument = false) (ignores : s.Ignores name)
    (outside : ∀ r ∈ s.removal? operation, Slot.ofName? r.stem name = none) :
    (s.run operation).Carries document name := by
  cases rewrites_run (s := s) same with
  | kept stored => exact ⟨stored ▸ h.ascending, by rw [stored, h.stored]⟩
  | merged stored =>
    have ascending : s.mergedDocument.Ascending := Table.ascending_override h.ascending
    exact ⟨stored ▸ ascending, by rw [stored, h.merged ignores]⟩
  | shifted r removal stored =>
    have ascending : (r.shift s.stored).Ascending := Table.ascending_ofPairs _
    refine ⟨stored ▸ ascending, ?_⟩
    rw [stored, Removal.get?_shift_of_ofName?_eq_none h.ascending (outside r removal), h.stored]

theorem carries_loadDocument (raw : Option String) (s : Session) (name : String) :
    (s.loadDocument raw).Carries (Document.parse raw) name := by
  have stored : (s.loadDocument raw).stored = Document.parse raw := stored_rebuild _ _
  constructor
  · rw [stored]
    exact Document.ascending_parse raw
  · rw [stored]

/-- A document that is loaded is carried forward through every run that brings no other document: what stands
in it under a name is in every document on the way and in every document that is saved, if in none of the
sessions a control that holds data has the name and the name is in no instance of a group from which one is
removed. -/
theorem get?_documents_of_unrelated (raw : Option String) (operations : List Operation) (name : String)
    (same : ∀ operation ∈ operations, operation.bringsDocument = false)
    (ignored : ∀ t ∈ (s.loadDocument raw).states operations, t.Ignores name)
    (outside : ∀ x ∈ (s.loadDocument raw).trail operations,
      ∀ r ∈ x.1.removal? x.2, Slot.ofName? r.stem name = none) :
    ∀ t ∈ (s.loadDocument raw).states operations,
      Table.get? name t.stored = Table.get? name (Document.parse raw) ∧
      Table.get? name t.mergedDocument = Table.get? name (Document.parse raw) ∧
      ∀ store key document u, t.save store key = .ok (document, u) →
        Table.get? name document = Table.get? name (Document.parse raw) := by
  have carries : ∀ t ∈ (s.loadDocument raw).states operations, t.Carries (Document.parse raw) name :=
    forall_states (carries_loadDocument raw s name) fun x hx carried =>
      carried.run (same x.2 (snd_mem_of_mem_trail hx)) (ignored x.1 (fst_mem_states hx)) (outside x hx)
  intro t ht
  have merged := (carries t ht).merged (ignored t ht)
  refine ⟨(carries t ht).stored, merged, fun store key document u saved => ?_⟩
  obtain ⟨prepared, -, -⟩ := save_eq_ok_iff.1 saved
  rw [(prepareSave_eq_ok_iff.1 prepared).2, merged]

/-- A name is given, a guest leaves, the form is saved, and another step begins. -/
def farewell : List Operation :=
  [.setValue "guests_2_name" (.str "Ann"), .removeInstance "guests" 1, .save storing ⟨"", ""⟩,
    .setStep (some "later"), .addInstance "guests"]

/-- A remark that reads as none of the guests is still there. -/
theorem get?_documents_of_unrelated_remark :
    let raw := some "\x7b\"guests_x_note\": \"late\", \"guests_1_name\": \"Bob\"\x7d"
    (∀ operation ∈ farewell, operation.bringsDocument = false) ∧
      (∀ t ∈ (guests.loadDocument raw).states farewell, t.Ignores "guests_x_note") ∧
      (∀ x ∈ (guests.loadDocument raw).trail farewell,
        ∀ r ∈ x.1.removal? x.2, Slot.ofName? r.stem "guests_x_note" = none) ∧
      (Table.get? "guests_x_note" ((guests.loadDocument raw).runAll farewell).mergedDocument).bind
        Json.text? = some "late" := by
  intro raw
  have same : ∀ operation ∈ farewell, operation.bringsDocument = false := by decide
  have ignored : ∀ t ∈ (guests.loadDocument raw).states farewell, t.Ignores "guests_x_note" := by
    unfold Ignores
    decide +kernel
  have outside : ∀ x ∈ (guests.loadDocument raw).trail farewell,
      ∀ r ∈ x.1.removal? x.2, Slot.ofName? r.stem "guests_x_note" = none := by
    decide +kernel
  have carried := get?_documents_of_unrelated raw farewell "guests_x_note" same ignored outside _
    (runAll_mem_states _ _)
  refine ⟨same, ignored, outside, ?_⟩
  rw [carried.2.1]
  decide +kernel

end Session

end Formwork
