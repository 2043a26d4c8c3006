import Formwork.Binary64.Basic
import Formwork.Table

/-!
# JSON values

Templates, documents and option rows are loosely typed and are kept as JSON values. A number is
either an integer or a binary64 number, and the two kinds never compare equal, not even `1` and
`1.0`. The members of an object form a `Table`; that they ascend at every depth is the predicate
`Json.Ordered`.
-/
namespace Formwork

/-- A JSON number: an integer written without fraction and exponent, or any other number. -/
inductive Number where
  /-- An integer. -/
  | int (z : Int)
  /-- A number with a fraction or exponent, or an integer beyond the range of 64 bits. -/
  | float (x : Binary64)
deriving DecidableEq, Repr

namespace Number

def same : Number → Number → Bool
  | .int a, .int b => a == b
  | .float a, .float b => a.same b
  | _, _ => false

/-- The nearest binary64 number. -/
def toBinary64 : Number → Binary64
  | .int z => .ofInt z
  | .float x => x

@[simp] theorem same_self (n : Number) : n.same n = true := by cases n <;> simp [same]

end Number

inductive Json where
  /-- The value `null`. -/
  | null
  /-- A truth value. -/
  | bool (b : Bool)
  /-- A number. -/
  | num (n : Number)
  /-- A text. -/
  | str (s : String)
  /-- An array. -/
  | arr (items : List Json)
  /-- An object with its members. -/
  | obj (members : List (String × Json))

/-- The members of an object, and also a stored document. -/
abbrev Fields := Table Json

namespace Json

instance : Inhabited Json := ⟨.null⟩

mutual

/-- Equality of values, where zeros of either sign are equal and numbers of two kinds are not. -/
def same : Json → Json → Bool
  | .null, .null => true
  | .bool a, .bool b => a == b
  | .num a, .num b => a.same b
  | .str a, .str b => a == b
  | .arr a, .arr b => sameItems a b
  | .obj a, .obj b => sameMembers a b
  | _, _ => false

def sameItems : List Json → List Json → Bool
  | [], [] => true
  | a :: as, b :: bs => same a b && sameItems as bs
  | _, _ => false

def sameMembers : List (String × Json) → List (String × Json) → Bool
  | [], [] => true
  | (k, a) :: as, (l, b) :: bs => k == l && same a b && sameMembers as bs
  | _, _ => false

end

instance : BEq Json := ⟨same⟩

mutual

/-- The members of every object in the value ascend. -/
def Ordered : Json → Prop
  | .arr items => OrderedItems items
  | .obj members => Table.Ascending members ∧ OrderedMembers members
  | _ => True

def OrderedItems : List Json → Prop
  | [] => True
  | v :: items => Ordered v ∧ OrderedItems items

def OrderedMembers : List (String × Json) → Prop
  | [] => True
  | (_, v) :: members => Ordered v ∧ OrderedMembers members

end

def isNull : Json → Bool
  | .null => true
  | _ => false

def text? : Json → Option String
  | .str s => some s
  | _ => none

def items? : Json → Option (List Json)
  | .arr items => some items
  | _ => none

def fields? : Json → Option Fields
  | .obj members => some members
  | _ => none

def number? : Json → Option Number
  | .num n => some n
  | _ => none

def member? (key : String) : Json → Option Json
  | .obj members => Table.get? key members
  | _ => none

/-- The object of a list of members; a later member replaces an earlier one of the same name. -/
def object (members : List (String × Json)) : Json := .obj (Table.ofPairs members)

def ofNat (n : Nat) : Json := .num (.int n)

/-- The value of an optional part, `null` if it is absent. -/
def ofOption {α : Type} (f : α → Json) : Option α → Json
  | some a => f a
  | none => .null

def ofTexts (texts : List String) : Json := .arr (texts.map .str)

mutual

@[simp] theorem same_self : ∀ v : Json, same v v = true
  | .null => rfl
  | .bool b => by simp [same]
  | .num n => by simp [same]
  | .str s => by simp [same]
  | .arr items => by simp [same, sameItems_self items]
  | .obj members => by simp [same, sameMembers_self members]

theorem sameItems_self : ∀ items : List Json, sameItems items items = true
  | [] => rfl
  | v :: items => by simp [sameItems, same_self v, sameItems_self items]

theorem sameMembers_self : ∀ members : List (String × Json), sameMembers members members = true
  | [] => rfl
  | (k, v) :: members => by simp [sameMembers, same_self v, sameMembers_self members]

end

@[simp] theorem beq_self (v : Json) : (v == v) = true := same_self v

end Json

end Formwork
