import Formwork.Config
import Formwork.Control.Basic
import Formwork.Text.Case
import Formwork.Tree.Basic

/-!
# Lookups

A lookup field searches for objects of some entity. What is not said in the field itself is taken from
what the configuration knows of the entity. Selecting an object gives the field a value and fills other
fields from parts of the object; references to these are resolved from where the lookup field stands.
-/
namespace Formwork

structure Lookup where
  entity : String
  method : Option String
  /-- The part of an object that becomes the value of the field. -/
  valuePath : Option String
  /-- The parts of an object that make up its text. -/
  displayPaths : List String
  fill : List FillPair
  limit : Nat
deriving DecidableEq, Repr

structure SearchRequest where
  entity : String
  method : Option String
  query : String
  limit : Nat
deriving DecidableEq, Repr

def SearchRequest.toJson (r : SearchRequest) : Json :=
  Json.object [("entity", .str r.entity), ("method", Json.ofOption .str r.method),
    ("query", .str r.query), ("limit", Json.ofNat r.limit)]

/-- Selected objects by the control that they were selected for. -/
abbrev Selections := Table Json

namespace Lookup

def filled? (s : Option String) : Option String := s.filter fun t => !Text.isBlankText t

/-- The first entity whose name or one of whose words occurs in the source, id or name of the field,
in whatever case. -/
def guessEntity? (config : Config) (f : Field) : Option String :=
  let about := Text.lowercase (f.dataSource.getD "" ++ " " ++ f.id ++ " " ++ f.name)
  let occurs := fun word => Text.contains about (Text.lowercase word)
  (config.lookupEntities.find? fun e =>
    occurs e.1 || e.2.keywords.any fun word => !Text.isBlankText word && occurs word).map (·.1)

/-- The entity that a field searches for: the one it names, one that it points to, or else its
source. -/
def entity? (config : Config) (f : Field) : Option String :=
  (filled? (f.lookup.bind LookupSpec.entity)).or <|
    (guessEntity? config f).or (filled? f.dataSource)

/-- The lookup of a field, if it is a search field or says something about a lookup, and an entity is
found. -/
def ofField? (config : Config) (f : Field) : Option Lookup :=
  if f.kind = .search ∨ f.lookup.isSome then
    (entity? config f).map fun entity =>
      let own := f.lookup.getD .none
      let defaults := (Table.get? entity config.lookupEntities).getD {}
      { entity
        method := own.method.or defaults.method
        valuePath := own.valuePath.or defaults.valuePath
        displayPaths := if own.displayPaths.isEmpty then defaults.displayPaths else own.displayPaths
        fill := if own.fill.isEmpty then defaults.fill else own.fill
        limit := own.limit.getD config.defaultSearchLimit }
  else none

/-- The request for a query. -/
def request (l : Lookup) (query : String) : SearchRequest :=
  ⟨l.entity, l.method, Text.trim query, l.limit⟩

def parts (l : Lookup) (selected : Json) : List String :=
  (l.displayPaths.filterMap fun path => (selected.atPath? path).map Json.displayText).filter
    fun s => !Text.isBlankText s

/-- The text of an object: its parts, or else the first conventional property with a text that is not
blank, or else the object itself. -/
def display (config : Config) (l : Lookup) (selected : Json) : String :=
  match l.parts selected, selected with
  | [], .obj row =>
    ((config.labelProperties ++ config.valueProperties).findSome? fun name =>
      ((Table.get? name row).map Json.displayText).filter fun s => !Text.isBlankText s).getD
        selected.render
  | [], _ => selected.displayText
  | parts, _ => Text.joinWith " - " parts

/-- The value that the field gets from an object: a part of it, or else its text. -/
def storedValue (config : Config) (l : Lookup) (selected : Json) : Json :=
  ((l.valuePath.bind fun path => selected.atPath? path).filter fun v => !v.isNull).getD
    (.str (l.display config selected))

/-- Gives every field to fill that is there the value that `value` finds for it. -/
def fillFrom (l : Lookup) (scope : Scope) (value : FillPair → Json) (controls : ControlSet) :
    ControlSet :=
  l.fill.foldl (fun s pair =>
    match s.resolve? pair.target scope with
    | some id => s.modify id (Control.set (value pair))
    | none => s) controls

/-- Gives the field the value of the selected object and fills other fields from it. -/
def select? (config : Config) (l : Lookup) (field : PlacedField) (selected : Json)
    (controls : ControlSet) : Option ControlSet :=
  (controls.set? field.controlId (l.storedValue config selected)).map <|
    l.fillFrom field.scope fun pair => (selected.atPath? pair.source).getD .null

def clear? (l : Lookup) (field : PlacedField) (controls : ControlSet) : Option ControlSet :=
  (controls.set? field.controlId .null).map <| l.fillFrom field.scope fun _ => .null

def toJson (l : Lookup) : Json :=
  Json.object [("entity", .str l.entity), ("method", Json.ofOption .str l.method),
    ("valuePath", Json.ofOption .str l.valuePath), ("displayPaths", Json.ofTexts l.displayPaths),
    ("fill", .arr (l.fill.map FillPair.toJson)), ("limit", Json.ofNat l.limit)]

end Lookup

end Formwork
