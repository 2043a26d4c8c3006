import Formwork.Text.Blank
import Formwork.Text.Numeral

/-!
# Identifiers of controls and groups

Field ids and titles are free text; controls and groups are addressed by identifiers of ASCII
letters, digits and underscores that are made from them. Inside a repeated group an identifier begins
with the stem of the group, the index of the instance and an underscore. That identifiers are
distinct is not a matter of this module: the tree renames those that clash.
-/
namespace Formwork

namespace Identifier

def isPlain (c : Char) : Bool := c.isAlphanum || c = '_'

/-- A field id with every other character replaced by an underscore, and `field` for a blank one. -/
def ofRaw (raw : String) : String :=
  let chars := (Text.trimChars raw.toList).map fun c => if isPlain c then c else '_'
  if chars = [] then "field" else String.ofList chars

/-- The words of ASCII letters and digits in a text, in lower case. -/
def words (s : List Char) : List (List Char) :=
  ((s.map fun c => if c.isAlphanum then c.toLower else '_').splitOn '_').filter (· ≠ [])

/-- The words of a title joined by underscores, and `group` for a title without words. -/
def ofTitle (title : String) : String :=
  match words title.toList with
  | [] => "group"
  | ws => Text.joinWith "_" (ws.map String.ofList)

/-- The key of a section: made from its base key unless that is blank or absent, else from its
title. -/
def ofSection (title : String) (baseKey : Option String) : String :=
  match baseKey with
  | some base => if Text.isBlankText base then ofTitle title else ofRaw base
  | none => ofTitle title

end Identifier

/-- One instance of a repeated group that encloses a field or group. -/
structure Frame where
  /-- The text that the identifiers of all instances of the group begin with. -/
  stem : String
  /-- The number of the instance, counted from one. -/
  index : Nat
deriving DecidableEq, Repr

namespace Frame

/-- The text that identifiers inside the instance begin with. -/
def opening (f : Frame) : String := f.stem ++ Text.ofNat f.index ++ "_"

def identifier (f : Frame) (raw : String) : String := f.opening ++ Identifier.ofRaw raw

end Frame

/-- The instances that enclose a field or group, outermost first. -/
abbrev Scope := List Frame

namespace Scope

/-- The text that keys of groups directly inside the scope begin with. -/
def opening (scope : Scope) : String :=
  match scope.getLast? with
  | some f => f.opening
  | none => ""

def identifier (scope : Scope) (raw : String) : String :=
  match scope.getLast? with
  | some f => f.identifier raw
  | none => Identifier.ofRaw raw

def index? (scope : Scope) : Option Nat := scope.getLast?.map Frame.index

end Scope

end Formwork
