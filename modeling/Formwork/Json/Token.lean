import Formwork.Json.Numeral

/-!
# Tokens of a JSON text

The text is read character by character by a machine that either stands between tokens or inside
one. Blanks are the space, the tab and the two line ends. A string keeps its `\u` escapes as 16-bit
units; whether they pair up to characters is decided when the string is read. Any other character is
refused, a byte order mark included.
-/
namespace Formwork.Json

inductive Piece where
  /-- A character, written as itself or as a short escape. -/
  | char (c : Char)
  /-- A 16-bit unit, written with four hexadecimal digits. -/
  | unit (n : Nat)
deriving DecidableEq

inductive Token where
  /-- An opening brace. -/
  | objectStart
  /-- A closing brace. -/
  | objectEnd
  /-- An opening bracket. -/
  | arrayStart
  /-- A closing bracket. -/
  | arrayEnd
  /-- A comma. -/
  | comma
  /-- A colon. -/
  | colon
  /-- A string. -/
  | text (pieces : List Piece)
  /-- A number. -/
  | number (t : Numeral)
  /-- The word `null`. -/
  | null
  /-- One of the words `true` and `false`. -/
  | bool (b : Bool)

namespace Token

/-- Where the machine stands. What has been read of a token is kept latest first. -/
inductive Place where
  /-- Between tokens. -/
  | between
  /-- Inside a string. -/
  | inText (read : List Piece)
  /-- After a backslash inside a string. -/
  | escaped (read : List Piece)
  /-- After `\u` and some of its four digits. -/
  | inUnit (read : List Piece) (missing : Nat) (value : Nat)
  /-- Inside a number. -/
  | inNumber (read : List Char)
  /-- Inside a word. -/
  | inWord (read : List Char)

/-- The tokens read so far, latest first, and the place the machine stands at. -/
structure Scan where
  done : List Token
  place : Place

def ofMark? : Char → Option Token
  | '\x7b' => some .objectStart
  | '\x7d' => some .objectEnd
  | '[' => some .arrayStart
  | ']' => some .arrayEnd
  | ',' => some .comma
  | ':' => some .colon
  | _ => none

def isGap (c : Char) : Bool := c = ' ' || c = '\t' || c = '\n' || c = '\r'

def isNumberChar (c : Char) : Bool :=
  c.isDigit || c = '+' || c = '-' || c = '.' || c = 'e' || c = 'E'

def ofWord? (letters : List Char) : Option Token :=
  if letters = "null".toList then some .null
  else if letters = "true".toList then some (.bool true)
  else if letters = "false".toList then some (.bool false)
  else none

def unescape? : Char → Option Char
  | '"' => some '"'
  | '\\' => some '\\'
  | '/' => some '/'
  | 'b' => some '\x08'
  | 'f' => some '\x0c'
  | 'n' => some '\n'
  | 'r' => some '\r'
  | 't' => some '\t'
  | _ => none

def hexValue? (c : Char) : Option Nat :=
  if c.isDigit then some (c.toNat - 48)
  else if 'a' ≤ c ∧ c ≤ 'f' then some (c.toNat - 87)
  else if 'A' ≤ c ∧ c ≤ 'F' then some (c.toNat - 55)
  else none

def start? (done : List Token) (c : Char) : Option Scan :=
  match ofMark? c with
  | some t => some ⟨t :: done, .between⟩
  | none =>
    if isGap c then some ⟨done, .between⟩
    else if c = '"' then some ⟨done, .inText []⟩
    else if c = '-' ∨ c.isDigit then some ⟨done, .inNumber [c]⟩
    else if c.isLower then some ⟨done, .inWord [c]⟩
    else none

def step? (s : Scan) (c : Char) : Option Scan :=
  match s.place with
  | .between => start? s.done c
  | .inText read =>
    if c = '"' then some ⟨.text read.reverse :: s.done, .between⟩
    else if c = '\\' then some { s with place := .escaped read }
    else if c.toNat < 0x20 then none
    else some { s with place := .inText (.char c :: read) }
  | .escaped read =>
    if c = 'u' then some { s with place := .inUnit read 4 0 }
    else (unescape? c).map fun d => { s with place := .inText (.char d :: read) }
  | .inUnit read missing value =>
    (hexValue? c).map fun d =>
      let value := value * 16 + d
      if missing ≤ 1 then { s with place := .inText (.unit value :: read) }
      else { s with place := .inUnit read (missing - 1) value }
  | .inNumber read =>
    if isNumberChar c then some { s with place := .inNumber (c :: read) }
    else (Numeral.ofChars? read.reverse).bind fun t => start? (.number t :: s.done) c
  | .inWord read =>
    if c.isLower then some { s with place := .inWord (c :: read) }
    else (ofWord? read.reverse).bind fun t => start? (t :: s.done) c

def scan? (s : Scan) : List Char → Option Scan
  | [] => some s
  | c :: rest =>
    match step? s c with
    | some s => scan? s rest
    | none => none

def finish? (s : Scan) : Option (List Token) :=
  match s.place with
  | .between => some s.done.reverse
  | .inNumber read => (Numeral.ofChars? read.reverse).map fun t => (.number t :: s.done).reverse
  | .inWord read => (ofWord? read.reverse).map fun t => (t :: s.done).reverse
  | _ => none

def ofText? (s : String) : Option (List Token) :=
  (scan? ⟨[], .between⟩ s.toList).bind finish?

end Token

end Formwork.Json
