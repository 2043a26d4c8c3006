import Formwork.Json.Numeral

/-!
# Writing JSON

Values are written without blanks. In strings only the quote, the backslash and the characters below
the space are escaped, those with a short escape by it and the others with four lower-case
hexadecimal digits.
-/
namespace Formwork.Json

def escapeLetter? : Char → Option Char
  | '"' => some '"'
  | '\\' => some '\\'
  | '\x08' => some 'b'
  | '\x0c' => some 'f'
  | '\n' => some 'n'
  | '\r' => some 'r'
  | '\t' => some 't'
  | _ => none

def hexDigit (n : Nat) : Char := if n < 10 then Char.ofNat (48 + n) else Char.ofNat (87 + n)

def escapeChar (c : Char) : List Char :=
  match escapeLetter? c with
  | some l => ['\\', l]
  | none =>
    if c.toNat < 0x20 then ['\\', 'u', '0', '0', hexDigit (c.toNat / 16), hexDigit (c.toNat % 16)]
    else [c]

def quote (s : String) : String := String.ofList ('"' :: s.toList.flatMap escapeChar ++ ['"'])

mutual

def render : Json → String
  | .null => "null"
  | .bool true => "true"
  | .bool false => "false"
  | .num n => n.text
  | .str s => quote s
  | .arr items => "[" ++ Text.joinWith "," (renderItems items) ++ "]"
  | .obj members => "\x7b" ++ Text.joinWith "," (renderMembers members) ++ "\x7d"

def renderItems : List Json → List String
  | [] => []
  | v :: items => render v :: renderItems items

def renderMembers : List (String × Json) → List String
  | [] => []
  | (k, v) :: members => (quote k ++ ":" ++ render v) :: renderMembers members

end

end Formwork.Json
