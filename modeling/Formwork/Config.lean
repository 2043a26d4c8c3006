import Formwork.Json.Written
import Formwork.Template.Printer

/-!
# Configuration

What the program needs besides a template: which choices depend on which, how rows become choices,
and what lookups are for. Every part has a default. A configuration is read from text; it is strict
about the parts it knows, skips members it does not know, and a text that does not fit gives the
default as a whole.
-/
namespace Formwork

/-- A rule that lets the choices of one source depend on a control bound to another. -/
structure DependencyRule where
  childSource : String
  parentSource : String
  /-- The property of the child's rows that names the parent values. -/
  linkProperty : String
deriving DecidableEq, Repr

structure EntityDefaults where
  /-- Words that point to the entity in the source, id or name of a field. -/
  keywords : List String := []
  method : Option String := none
  valuePath : Option String := none
  displayPaths : List String := []
  fill : List FillPair := []
deriving DecidableEq, Repr

structure Config where
  dependentRules : List DependencyRule := []
  /-- The property preferred as label of a choice, by source. -/
  preferredLabels : Table String := []
  /-- The properties tried for the value of a choice. -/
  valueProperties : List String := ["value", "id", "code", "key"]
  /-- The properties tried for the label of a choice. -/
  labelProperties : List String := ["label", "name", "text", "title", "description", "displayName"]
  /-- The properties never used as a label where no other is found. -/
  labelSkipProperties : List String :=
    ["id", "code", "value", "key", "createdBy", "updatedBy", "createdAt", "updatedAt", "status"]
  lookupEntities : Table EntityDefaults := []
  /-- Whether a field is taken for an owner by its id or name if it has no role. -/
  inferRoles : Bool := true
  /-- The default value that stands for the current time. -/
  timestampToken : String := "D"
  /-- The greatest count of a repetition that declares none. -/
  repeatFallbackMax : Nat := 99
  /-- The number of results that a search asks for unless the field says otherwise. -/
  defaultSearchLimit : Nat := 10
deriving Repr

namespace Json.Written

def string? : Written → Option String
  | .text pieces => text? pieces
  | _ => none

def flag? : Written → Option Bool
  | .bool b => some b
  | _ => none

def natBelow? (bound : Nat) : Written → Option Nat
  | .number t =>
    match t.value? with
    | some (.int z) => if 0 ≤ z ∧ z < bound then some z.toNat else none
    | _ => none
  | _ => none

/-- What `f` reads, or nothing for `null`. -/
def nullable? {α : Type} (f : Written → Option α) : Written → Option (Option α)
  | .null => some none
  | w => (f w).map some

def listOf? {α : Type} (f : Written → Option α) : Written → Option (List α)
  | .array items => items.mapM f
  | _ => none

/-- The table of what `f` reads from the members; of a repeated name the last counts. -/
def tableOf? {α : Type} (f : Written → Option α) : Written → Option (Table α)
  | .object members =>
    (members.mapM fun (e : List Piece × Written) =>
      match text? e.1, f e.2 with
      | some k, some v => some (k, v)
      | _, _ => none).map Table.ofPairs
  | _ => none

/-- The parts of a record by name. A record is an object, in which every name must be readable and no
known name may be repeated, or a list of no more parts than there are names, in their order. -/
def record? (names : List String) : Written → Option (List (String × Written))
  | .object members => do
    let named ← members.mapM fun (e : List Piece × Written) => (text? e.1).map fun k => (k, e.2)
    let known := named.filter fun e => e.1 ∈ names
    if (known.map (·.1)).Nodup then some known else none
  | .array items => if items.length ≤ names.length then some (names.zip items) else none
  | _ => none

/-- The part of a record under a name, read by `f`, or `default` if it is missing. -/
def partD {α : Type} (parts : List (String × Written)) (f : Written → Option α) (default : α)
    (name : String) : Option α :=
  match parts.lookup name with
  | some w => f w
  | none => some default

end Json.Written

open Json (Written)

namespace DependencyRule

/-- Reads a rule, all of whose parts are needed. -/
def ofWritten? (w : Written) : Option DependencyRule := do
  let parts ← w.record? ["childSource", "parentSource", "linkProperty"]
  let childSource ← (parts.lookup "childSource").bind Written.string?
  let parentSource ← (parts.lookup "parentSource").bind Written.string?
  let linkProperty ← (parts.lookup "linkProperty").bind Written.string?
  some { childSource, parentSource, linkProperty }

def toJson (r : DependencyRule) : Json :=
  Json.object [("childSource", .str r.childSource), ("parentSource", .str r.parentSource),
    ("linkProperty", .str r.linkProperty)]

end DependencyRule

namespace FillPair

def ofWritten? (w : Written) : Option FillPair := do
  let parts ← w.record? ["target", "source"]
  let target ← (parts.lookup "target").bind Written.string?
  let source ← (parts.lookup "source").bind Written.string?
  some { target, source }

end FillPair

namespace EntityDefaults

def ofWritten? (w : Written) : Option EntityDefaults := do
  let parts ← w.record? ["keywords", "method", "valuePath", "displayPaths", "fill"]
  let keywords ← Written.partD parts (Written.listOf? Written.string?) [] "keywords"
  let method ← Written.partD parts (Written.nullable? Written.string?) none "method"
  let valuePath ← Written.partD parts (Written.nullable? Written.string?) none "valuePath"
  let displayPaths ← Written.partD parts (Written.listOf? Written.string?) [] "displayPaths"
  let fill ← Written.partD parts (Written.listOf? FillPair.ofWritten?) [] "fill"
  some { keywords, method, valuePath, displayPaths, fill }

def toJson (e : EntityDefaults) : Json :=
  Json.object [("keywords", Json.ofTexts e.keywords), ("method", Json.ofOption .str e.method),
    ("valuePath", Json.ofOption .str e.valuePath), ("displayPaths", Json.ofTexts e.displayPaths),
    ("fill", .arr (e.fill.map FillPair.toJson))]

end EntityDefaults

namespace Config

def default : Config := {}

def ofWritten? (w : Written) : Option Config := do
  let parts ← w.record?
    ["dependentRules", "preferredLabels", "valueProperties", "labelProperties",
      "labelSkipProperties", "lookupEntities", "inferRoles", "timestampToken", "repeatFallbackMax",
      "defaultSearchLimit"]
  let texts := Written.listOf? Written.string?
  let dependentRules ← Written.partD parts (Written.listOf? DependencyRule.ofWritten?)
    default.dependentRules "dependentRules"
  let preferredLabels ← Written.partD parts (Written.tableOf? Written.string?)
    default.preferredLabels "preferredLabels"
  let valueProperties ← Written.partD parts texts default.valueProperties "valueProperties"
  let labelProperties ← Written.partD parts texts default.labelProperties "labelProperties"
  let labelSkipProperties ← Written.partD parts texts
    default.labelSkipProperties "labelSkipProperties"
  let lookupEntities ← Written.partD parts (Written.tableOf? EntityDefaults.ofWritten?)
    default.lookupEntities "lookupEntities"
  let inferRoles ← Written.partD parts Written.flag? default.inferRoles "inferRoles"
  let timestampToken ← Written.partD parts Written.string? default.timestampToken "timestampToken"
  let repeatFallbackMax ← Written.partD parts (Written.natBelow? boundLimit)
    default.repeatFallbackMax "repeatFallbackMax"
  let defaultSearchLimit ← Written.partD parts (Written.natBelow? (Nat.pow 2 64))
    default.defaultSearchLimit "defaultSearchLimit"
  some {
    dependentRules, preferredLabels, valueProperties, labelProperties, labelSkipProperties
    lookupEntities, inferRoles, timestampToken, repeatFallbackMax, defaultSearchLimit }

/-- Reads a configuration from text; a text that does not fit gives the default. -/
def ofText (s : String) : Config := ((Written.ofText? s).bind ofWritten?).getD default

def toJson (c : Config) : Json :=
  Json.object [("dependentRules", .arr (c.dependentRules.map DependencyRule.toJson)),
    ("preferredLabels", .obj (c.preferredLabels.mapValues .str)),
    ("valueProperties", Json.ofTexts c.valueProperties),
    ("labelProperties", Json.ofTexts c.labelProperties),
    ("labelSkipProperties", Json.ofTexts c.labelSkipProperties),
    ("lookupEntities", .obj (c.lookupEntities.mapValues EntityDefaults.toJson)),
    ("inferRoles", .bool c.inferRoles), ("timestampToken", .str c.timestampToken),
    ("repeatFallbackMax", Json.ofNat c.repeatFallbackMax),
    ("defaultSearchLimit", Json.ofNat c.defaultSearchLimit)]

end Config

end Formwork
