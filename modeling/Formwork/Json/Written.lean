import Formwork.Json.Token

/-!
# JSON texts as written

A text is a tree of tokens in which members stand in the order of the text and may repeat a name.
Numbers and strings are not yet given a meaning, so that parts nobody reads may hold numbers out of
range and unpaired surrogates. Nesting is not limited here.
-/
namespace Formwork.Json

inductive Written where
  /-- The word `null`. -/
  | null
  /-- One of the words `true` and `false`. -/
  | bool (b : Bool)
  /-- A number token. -/
  | number (t : Numeral)
  /-- A string. -/
  | text (pieces : List Piece)
  /-- An array. -/
  | array (items : List Written)
  /-- An object with its members in the order of the text. -/
  | object (members : List (List Piece × Written))

namespace Written

/-- A container that is still open, its content latest first. -/
inductive Frame where
  /-- An array. -/
  | array (items : List Written)
  /-- An object that waits for a name. -/
  | object (members : List (List Piece × Written))
  /-- An object that waits for the value of a name. -/
  | member (members : List (List Piece × Written)) (name : List Piece)

/-- What may follow. -/
inductive Expect where
  /-- A value. -/
  | value
  /-- A value, or the end of the array just opened. -/
  | firstItem
  /-- A name. -/
  | name
  /-- A name, or the end of the object just opened. -/
  | firstName
  /-- The colon after a name. -/
  | colon
  /-- A comma or the end of the innermost container. -/
  | next
  /-- Nothing: the text is this value. -/
  | nothing (v : Written)

structure Build where
  frames : List Frame
  expect : Expect

def place (v : Written) : List Frame → Option Build
  | [] => some ⟨[], .nothing v⟩
  | .array items :: frames => some ⟨.array (v :: items) :: frames, .next⟩
  | .member members name :: frames => some ⟨.object ((name, v) :: members) :: frames, .next⟩
  | .object _ :: _ => none

def begin? (frames : List Frame) : Token → Option Build
  | .null => place .null frames
  | .bool b => place (.bool b) frames
  | .number t => place (.number t) frames
  | .text pieces => place (.text pieces) frames
  | .arrayStart => some ⟨.array [] :: frames, .firstItem⟩
  | .objectStart => some ⟨.object [] :: frames, .firstName⟩
  | _ => none

def step? (b : Build) (t : Token) : Option Build :=
  match b.expect, b.frames, t with
  | .value, frames, t => begin? frames t
  | .firstItem, .array items :: frames, .arrayEnd => place (.array items.reverse) frames
  | .firstItem, frames, t => begin? frames t
  | .firstName, .object members :: frames, .objectEnd => place (.object members.reverse) frames
  | .firstName, .object members :: frames, .text name => some ⟨.member members name :: frames, .colon⟩
  | .name, .object members :: frames, .text name => some ⟨.member members name :: frames, .colon⟩
  | .colon, frames, .colon => some ⟨frames, .value⟩
  | .next, .array items :: frames, .comma => some ⟨.array items :: frames, .value⟩
  | .next, .array items :: frames, .arrayEnd => place (.array items.reverse) frames
  | .next, .object members :: frames, .comma => some ⟨.object members :: frames, .name⟩
  | .next, .object members :: frames, .objectEnd => place (.object members.reverse) frames
  | _, _, _ => none

def build? (b : Build) : List Token → Option Build
  | [] => some b
  | t :: rest =>
    match step? b t with
    | some b => build? b rest
    | none => none

def ofText? (s : String) : Option Written :=
  (Token.ofText? s).bind fun tokens =>
    (build? ⟨[], .value⟩ tokens).bind fun b =>
      match b.expect with
      | .nothing v => some v
      | _ => none

/-- The characters of a string. Two units may form a surrogate pair; a surrogate that is not part of
a pair stands for no character. -/
def chars? : List Piece → Option (List Char)
  | [] => some []
  | .char c :: rest => (chars? rest).map (c :: ·)
  | .unit high :: rest =>
    if 0xD800 ≤ high ∧ high ≤ 0xDBFF then
      match rest with
      | .unit low :: rest =>
        if 0xDC00 ≤ low ∧ low ≤ 0xDFFF then
          let code := 0x10000 + (high - 0xD800) * 0x400 + (low - 0xDC00)
          (chars? rest).map (Char.ofNat code :: ·)
        else none
      | _ => none
    else if 0xDC00 ≤ high ∧ high ≤ 0xDFFF then none
    else (chars? rest).map (Char.ofNat high :: ·)

def text? (pieces : List Piece) : Option String := (chars? pieces).map String.ofList

end Written

def nestingLimit : Nat := 127

mutual

/-- The value of a text, at most `depth` containers deep. -/
def ofWritten? (depth : Nat) : Written → Option Json
  | .null => some .null
  | .bool b => some (.bool b)
  | .number t => t.value?.map .num
  | .text pieces => (Written.text? pieces).map .str
  | .array items => if depth = 0 then none else (itemsOfWritten? (depth - 1) items).map .arr
  | .object members => if depth = 0 then none else (membersOfWritten? (depth - 1) members).map object

def itemsOfWritten? (depth : Nat) : List Written → Option (List Json)
  | [] => some []
  | w :: items =>
    match ofWritten? depth w, itemsOfWritten? depth items with
    | some v, some vs => some (v :: vs)
    | _, _ => none

/-- The members of an object in the order of the text. -/
def membersOfWritten? (depth : Nat) : List (List Piece × Written) → Option (List (String × Json))
  | [] => some []
  | (name, w) :: members =>
    match Written.text? name, ofWritten? depth w, membersOfWritten? depth members with
    | some k, some v, some rest => some ((k, v) :: rest)
    | _, _, _ => none

end

def ofText? (s : String) : Option Json := (Written.ofText? s).bind (ofWritten? nestingLimit)

end Formwork.Json
