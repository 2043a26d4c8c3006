import Formwork.Error
import Formwork.Lookup
import Formwork.Session.Basic

/-!
# Filling in a form

What a user does to a form, and what arrives for it meanwhile: values, instances of repeated groups,
choices, and selections of lookups. Changes are reported to the view, except where the form is made
anew and the view has to look at all of it.
-/
namespace Formwork.Session

def reported (before : Session) (requested : Option String) (s : Session) : ChangeSet × Session :=
  (.between requested before.appearance s.appearance, s)

def setValue (id : String) (v : Json) (s : Session) : Except FormError (ChangeSet × Session) :=
  match s.controls.set? id v with
  | some controls => .ok (reported s (some id) ({ s with controls }.reconcile.settle))
  | none => .error (.unknownControl id)

def touch (id : String) (s : Session) : Except FormError Session :=
  match s.controls.touch? id with
  | some controls => .ok { s with controls }
  | none => .error (.unknownControl id)

def addInstance? (key : String) (s : Session) : Option Session :=
  (s.registry.add? key).map fun registry => { s with registry }.rebuild s.controls.snapshot

/-- Removes an instance of a repeated group, if there is one to remove. Whatever is known of later
instances moves down by one. -/
def removeInstance? (key : String) (index : Nat) (s : Session) : Option Session :=
  (s.registry.remove? key index).map fun removed =>
    { s with
      registry := removed.2
      stored := removed.1.shift s.stored
      selections := removed.1.shift s.selections }.rebuild (removed.1.shift s.controls.snapshot)

def askForChoices (s : Session) : List ChoiceRequest × Session :=
  let asked := s.catalog.ask s.template.moduleHints
  (asked.1, { s with catalog := asked.2 })

/-- Takes the answer of a source. One that belongs to an earlier generation changes nothing. -/
def receiveChoices (generation : Nat) (source : String) (response : Response) (s : Session) :
    ChangeSet × Session :=
  match s.catalog.receive? s.config generation source response with
  | some catalog => reported s none ({ s with catalog }.reconcile.settle)
  | none => (.empty, s)

/-- Takes the answer that `fetch` gives to a request. -/
def answered (fetch : String → List String → Response) (config : Config) (c : Catalog)
    (r : ChoiceRequest) : Catalog :=
  (c.receive? config r.generation r.source (fetch r.source r.moduleHints)).getD c

/-- Asks for the sources that controls wait for, and takes all the answers at once. -/
def resolveChoices (fetch : String → List String → Response) (s : Session) : ChangeSet × Session :=
  let asked := s.askForChoices
  let catalog := asked.1.foldl (answered fetch s.config) asked.2.catalog
  reported s none ({ asked.2 with catalog }.reconcile.settle)

def lookup (id : String) (s : Session) : Except FormError (PlacedField × Lookup) :=
  match s.tree.field? id with
  | none => .error (.unknownControl id)
  | some field =>
    match Lookup.ofField? s.config field.field with
    | none => .error (.notALookup id)
    | some lookup => .ok (field, lookup)

/-- The request that searches for what a user typed into a lookup control. -/
def searchRequest (id query : String) (s : Session) : Except FormError SearchRequest :=
  (s.lookup id).map fun found => found.2.request query

/-- Searches for what a user typed into a lookup control. A search that fails finds nothing. -/
def search (find : SearchRequest → Except FormError (List Json)) (id query : String) (s : Session) :
    Except FormError (List Json) :=
  (s.searchRequest id query).map fun request =>
    match find request with
    | .ok results => results
    | .error _ => []

def select (id : String) (selected : Json) (s : Session) :
    Except FormError (ChangeSet × Session) := do
  let (field, lookup) ← s.lookup id
  match lookup.select? s.config field selected s.controls with
  | some controls =>
    .ok (reported s (some id)
      ({ s with controls, selections := Table.insert id selected s.selections }.reconcile.settle))
  | none => .error (.unknownControl id)

/-- Takes back the selection in a lookup control. -/
def deselect (id : String) (s : Session) : Except FormError (ChangeSet × Session) := do
  let (field, lookup) ← s.lookup id
  match lookup.clear? field s.controls with
  | some controls =>
    .ok (reported s (some id)
      ({ s with controls, selections := Table.erase id s.selections }.settle))
  | none => .error (.unknownControl id)

def selectionText? (id : String) (s : Session) : Option String :=
  match s.lookup id with
  | .ok found => (Table.get? id s.selections).map (found.2.display s.config)
  | .error _ => none

/-- The text to show for a control: that of the object selected, or else of its value if that is filled
in. -/
def displayText? (id : String) (s : Session) : Option String :=
  (s.selectionText? id).or <|
    ((s.controls.value? id).filter Json.isFilled).map Json.displayText

end Formwork.Session
