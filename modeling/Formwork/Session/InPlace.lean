import Formwork.Session.Operation

/-!
# Operations in place

A host that holds on to a session has it changed in place, write by write. An operation that finds on its way
that it cannot be done stops there, and what it has written by then stays written.
-/
namespace Formwork

/-- What is done in place to a session. It may stop with an error, and undoes nothing if it does. -/
abbrev InPlace := EStateM FormError Session

/-- What an operation gives back. -/
inductive Reply where
  | done
  /-- Whether the operation was accepted. -/
  | accepted (accepted : Bool)
  | requests (requests : List ChoiceRequest)
  | changes (changes : ChangeSet)
  | document (document : Fields)

namespace InPlace

def demand {α : Type} : Except FormError α → InPlace α
  | .ok found => pure found
  | .error e => throw e

def write (id : String) (v : Json) : InPlace Unit := do
  let s ← get
  match s.controls.set? id v with
  | some controls => set { s with controls }
  | none => throw (.unknownControl id)

/-- Gives every field to fill that is there the value that `value` finds for it, one after another. -/
def fill (value : FillPair → Json) (scope : Scope) : List FillPair → InPlace Unit
  | [] => pure ()
  | pair :: rest => do
    let s ← get
    match s.controls.resolve? pair.target scope with
    | some id => write id (value pair)
    | none => pure ()
    fill value scope rest

/-- Gives a field with a lookup a value, and then fills other fields along with it. -/
def enter (field : PlacedField) (lookup : Lookup) (v : Json) (value : FillPair → Json) :
    InPlace Unit := do
  write field.controlId v
  fill value field.scope lookup.fill

def report (requested : Option String) (before : Appearance) : InPlace ChangeSet := do
  let s ← get
  pure (.between requested before s.appearance)

def setValue (id : String) (v : Json) : InPlace ChangeSet := do
  let s ← get
  write id v
  modify Session.reconcile
  modify Session.settle
  report (some id) s.appearance

def touch (id : String) : InPlace Unit := do
  let s ← get
  match s.controls.touch? id with
  | some controls => set { s with controls }
  | none => throw (.unknownControl id)

def select (id : String) (selected : Json) : InPlace ChangeSet := do
  let s ← get
  let (field, lookup) ← demand (s.lookup id)
  enter field lookup (lookup.storedValue s.config selected) fun pair =>
    (selected.atPath? pair.source).getD .null
  modify fun s => { s with selections := Table.insert field.controlId selected s.selections }
  modify Session.reconcile
  modify Session.settle
  report (some id) s.appearance

def deselect (id : String) : InPlace ChangeSet := do
  let s ← get
  let (field, lookup) ← demand (s.lookup id)
  enter field lookup .null fun _ => .null
  modify fun s => { s with selections := Table.erase field.controlId s.selections }
  modify Session.settle
  report (some id) s.appearance

def fetchTemplate (fetch : String → Except FormError String) (id : String) : InPlace Unit := do
  let text ← demand (fetch id)
  modify (Session.loadTemplate (.ofTextLenient text))

def fetchDocument (fetch : DocumentKey → Except FormError (Option String)) (key : DocumentKey) :
    InPlace Unit := do
  let raw ← demand (fetch key)
  modify (Session.loadDocument raw)

def prepareSave : InPlace Fields := do
  let s ← get
  match s.violations with
  | [] => pure s.mergedDocument
  | missing => throw (.incomplete missing)

def save (store : DocumentKey → Fields → String → Except FormError Unit) (key : DocumentKey) :
    InPlace Fields := do
  let document ← prepareSave
  let s ← get
  demand (store key document (s.operator.getD ""))
  modify (Session.commitSaved document)
  pure document

def always (f : Session → Session) : InPlace Reply := do
  modify f
  pure .done

def ifAccepted (f : Session → Option Session) : InPlace Reply := do
  let s ← get
  match f s with
  | some next =>
    set next
    pure (.accepted true)
  | none => pure (.accepted false)

def giving {α : Type} (reply : α → Reply) (f : Session → α × Session) : InPlace Reply := do
  let s ← get
  set (f s).2
  pure (reply (f s).1)

def carryOut : Operation → InPlace Reply
  | .passTime now => always (Session.atTime now)
  | .setOperator operator => always (Session.withOperator operator)
  | .loadTemplate template => always (Session.loadTemplate template)
  | .fetchTemplate fetch id => (fun _ => .done) <$> fetchTemplate fetch id
  | .loadDocument raw => always (Session.loadDocument raw)
  | .fetchDocument fetch key => (fun _ => .done) <$> fetchDocument fetch key
  | .setStep step => always (Session.setStep step)
  | .setValue id v => .changes <$> setValue id v
  | .touch id => (fun _ => .done) <$> touch id
  | .addInstance key => ifAccepted (Session.addInstance? key)
  | .removeInstance key index => ifAccepted (Session.removeInstance? key index)
  | .askForChoices => giving .requests Session.askForChoices
  | .receiveChoices generation source response =>
    giving .changes (Session.receiveChoices generation source response)
  | .resolveChoices fetch => giving .changes (Session.resolveChoices fetch)
  | .select id selected => .changes <$> select id selected
  | .deselect id => .changes <$> deselect id
  | .commitSaved document => always (Session.commitSaved document)
  | .save store key => .document <$> save store key

end InPlace

end Formwork
