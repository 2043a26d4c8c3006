import Formwork.Text.Blank

/-!
# Decimal numerals

Writing a natural number with decimal digits and reading it back. Reading accepts ASCII digits
only, leading zeros included; the wider class of decimal digits of every script is here because
names of repeated fields are scanned with it.
-/
namespace Formwork.Text

/-- The decimal digits of every script (general category Nd), as closed ranges in ascending order. -/
def digitRanges : List (Nat × Nat) :=
  [(0x30, 0x39), (0x660, 0x669), (0x6F0, 0x6F9), (0x7C0, 0x7C9), (0x966, 0x96F), (0x9E6, 0x9EF),
   (0xA66, 0xA6F), (0xAE6, 0xAEF), (0xB66, 0xB6F), (0xBE6, 0xBEF), (0xC66, 0xC6F),
   (0xCE6, 0xCEF), (0xD66, 0xD6F), (0xDE6, 0xDEF), (0xE50, 0xE59), (0xED0, 0xED9),
   (0xF20, 0xF29), (0x1040, 0x1049), (0x1090, 0x1099), (0x17E0, 0x17E9), (0x1810, 0x1819),
   (0x1946, 0x194F), (0x19D0, 0x19D9), (0x1A80, 0x1A89), (0x1A90, 0x1A99), (0x1B50, 0x1B59),
   (0x1BB0, 0x1BB9), (0x1C40, 0x1C49), (0x1C50, 0x1C59), (0xA620, 0xA629), (0xA8D0, 0xA8D9),
   (0xA900, 0xA909), (0xA9D0, 0xA9D9), (0xA9F0, 0xA9F9), (0xAA50, 0xAA59), (0xABF0, 0xABF9),
   (0xFF10, 0xFF19), (0x104A0, 0x104A9), (0x10D30, 0x10D39), (0x10D40, 0x10D49),
   (0x11066, 0x1106F), (0x110F0, 0x110F9), (0x11136, 0x1113F), (0x111D0, 0x111D9),
   (0x112F0, 0x112F9), (0x11450, 0x11459), (0x114D0, 0x114D9), (0x11650, 0x11659),
   (0x116C0, 0x116C9), (0x116D0, 0x116E3), (0x11730, 0x11739), (0x118E0, 0x118E9),
   (0x11950, 0x11959), (0x11BF0, 0x11BF9), (0x11C50, 0x11C59), (0x11D50, 0x11D59),
   (0x11DA0, 0x11DA9), (0x11DE0, 0x11DE9), (0x11F50, 0x11F59), (0x16130, 0x16139),
   (0x16A60, 0x16A69), (0x16AC0, 0x16AC9), (0x16B50, 0x16B59), (0x16D70, 0x16D79),
   (0x1CCF0, 0x1CCF9), (0x1D7CE, 0x1D7FF), (0x1E140, 0x1E149), (0x1E2F0, 0x1E2F9),
   (0x1E4F0, 0x1E4F9), (0x1E5F1, 0x1E5FA), (0x1E950, 0x1E959), (0x1FBF0, 0x1FBF9)]

def isDecimalDigit (c : Char) : Bool := inRanges digitRanges c.toNat

def digitChar (d : Nat) : Char := Char.ofNat (48 + d)

def digitValue (c : Char) : Nat := c.toNat - 48

/-- The decimal digits of `n`, most significant first and without leading zeros. -/
def numeral (n : Nat) : List Char :=
  if n < 10 then [digitChar n] else numeral (n / 10) ++ [digitChar (n % 10)]

/-- The number that a row of ASCII digits stands for when they follow the digits of `acc`. -/
def readDigits (acc : Nat) (s : List Char) : Nat :=
  s.foldl (fun n c => n * 10 + digitValue c) acc

/-- The number written as one or more ASCII digits, or `none` for any other text. -/
def natOfChars? (s : List Char) : Option Nat :=
  if s ≠ [] && s.all Char.isDigit then some (readDigits 0 s) else none

def ofNat (n : Nat) : String := String.ofList (numeral n)

def ofInt : Int → String
  | .ofNat n => ofNat n
  | .negSucc n => "-" ++ ofNat (n + 1)

theorem natOfChars?_eq_some_iff {s : List Char} {n : Nat} :
    natOfChars? s = some n ↔ s ≠ [] ∧ (∀ c ∈ s, c.isDigit = true) ∧ readDigits 0 s = n := by
  simp [natOfChars?, and_assoc]

theorem readDigits_append (acc : Nat) (s t : List Char) :
    readDigits acc (s ++ t) = readDigits (readDigits acc s) t :=
  List.foldl_append

theorem digitValue_digitChar {d : Nat} (h : d < 10) : digitValue (digitChar d) = d := by
  have : d = 0 ∨ d = 1 ∨ d = 2 ∨ d = 3 ∨ d = 4 ∨ d = 5 ∨ d = 6 ∨ d = 7 ∨ d = 8 ∨ d = 9 := by omega
  rcases this with h | h | h | h | h | h | h | h | h | h <;> subst h <;> decide

theorem isDigit_digitChar {d : Nat} (h : d < 10) : (digitChar d).isDigit = true := by
  have : d = 0 ∨ d = 1 ∨ d = 2 ∨ d = 3 ∨ d = 4 ∨ d = 5 ∨ d = 6 ∨ d = 7 ∨ d = 8 ∨ d = 9 := by omega
  rcases this with h | h | h | h | h | h | h | h | h | h <;> subst h <;> decide

/-- A numeral reads back as the number it was written for. -/
theorem readDigits_numeral (n : Nat) : readDigits 0 (numeral n) = n := by
  fun_induction numeral n with
  | case1 n h => simp only [readDigits, List.foldl_cons, List.foldl_nil, digitValue_digitChar h]; omega
  | case2 n h ih =>
    have last : digitValue (digitChar (n % 10)) = n % 10 := digitValue_digitChar (by omega)
    rw [readDigits_append, ih]
    simp only [readDigits, List.foldl_cons, List.foldl_nil, last]
    omega

theorem numeral_ne_nil (n : Nat) : numeral n ≠ [] := by
  unfold numeral
  split <;> simp

theorem isDigit_of_mem_numeral {n : Nat} {c : Char} (h : c ∈ numeral n) : c.isDigit = true := by
  fun_induction numeral n with
  | case1 n hn =>
    rw [List.mem_singleton.1 h]
    exact isDigit_digitChar hn
  | case2 n hn ih =>
    rcases List.mem_append.1 h with h | h
    · exact ih h
    · rw [List.mem_singleton.1 h]
      exact isDigit_digitChar (Nat.mod_lt n (by decide))

theorem natOfChars?_numeral (n : Nat) : natOfChars? (numeral n) = some n := by
  have digits : (numeral n).all Char.isDigit = true :=
    List.all_eq_true.2 fun c h => isDigit_of_mem_numeral h
  simp [natOfChars?, numeral_ne_nil, digits, readDigits_numeral]

end Formwork.Text
