import Formwork.Json.Printer
import Formwork.Text.Blank

/-!
# Loosely typed values

Templates, option rows and documents mix numbers, texts and option objects. This module holds the
coercions through which they are compared and shown: the value of an option object, whether a value
is filled in, the text of a scalar, and the part of a value that a dotted path leads to.
-/
namespace Formwork.Json

/-- The value itself, or the member `value` of an object that has one. -/
def unwrap : Json → Json
  | .obj members => (Table.get? "value" members).getD (.obj members)
  | v => v

/-- Whether something is filled in: not `null`, and no blank text, empty array or empty object. -/
def isFilled (v : Json) : Bool :=
  match v.unwrap with
  | .null => false
  | .str s => !Text.isBlankText s
  | .arr items => !items.isEmpty
  | .obj members => !members.isEmpty
  | .bool _ => true
  | .num _ => true

/-- Whether the value holds something worth clearing: it is filled in and not `false`. -/
def isTruthy (v : Json) : Bool :=
  v.isFilled &&
    match v.unwrap with
    | .bool false => false
    | _ => true

/-- The empty value of the same shape. -/
def emptied : Json → Json
  | .arr _ => .arr []
  | _ => .null

/-- The text of a number as a scalar: integers below `10 ^ 15` have no fraction, however they are
written. -/
def numberText (n : Number) : String :=
  let x := n.toBinary64
  if x.isIntegral && x.truncated < Nat.pow 10 15 then
    Text.ofInt (if x.negative then -x.truncated else x.truncated)
  else n.text

def boolText (b : Bool) : String := if b then "true" else "false"

/-- The trimmed text of a scalar, or `none` for `null`, arrays and objects. -/
def scalarText? (v : Json) : Option String :=
  match v.unwrap with
  | .null => none
  | .str s => some (Text.trim s)
  | .bool b => some (boolText b)
  | .num n => some (numberText n)
  | .arr _ => none
  | .obj _ => none

/-- Equality of the scalar texts; two values without one are compared as they are. -/
def looselyEqual (a b : Json) : Bool :=
  match a.scalarText?, b.scalarText? with
  | some s, some t => s == t
  | none, none => a.unwrap == b.unwrap
  | _, _ => false

/-- The segments of a dotted path, empty ones left out. -/
def segments (path : String) : List String :=
  (path.toList.splitOn '.').filterMap fun s => if s = [] then none else some (String.ofList s)

/-- The position that a segment names in an array: digits, possibly after a plus sign, below the
range of 64 bits. -/
def position? (segment : String) : Option Nat :=
  let digits := match segment.toList with
    | '+' :: rest => rest
    | s => s
  (Text.natOfChars? digits).filter (· < Nat.pow 2 64)

/-- The part of a value under one segment. -/
def child? (v : Json) (segment : String) : Option Json :=
  match v with
  | .obj members => Table.get? segment members
  | .arr items => (position? segment).bind fun i => items[i]?
  | _ => none

def atPath? (v : Json) (path : String) : Option Json := (segments path).foldlM child? v

mutual

/-- The text shown for a value: texts as they are, the non-empty texts of an array's items separated
by commas, and anything else as a scalar or as JSON. -/
def displayText : Json → String
  | .null => ""
  | .str s => s
  | .arr items => Text.joinWith ", " (displayItems items)
  | .bool b => boolText b
  | .num n => numberText n
  | .obj members => ((Json.obj members).scalarText?).getD (render (.obj members))

def displayItems : List Json → List String
  | [] => []
  | v :: items =>
    let s := displayText v
    if s = "" then displayItems items else s :: displayItems items

end

end Formwork.Json
