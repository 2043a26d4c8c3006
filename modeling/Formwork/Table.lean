/-!
# Tables

A table assigns values to names and lists them by ascending name, names compared by code point. It
is a plain list of pairs, so that it can stand inside recursive types; that the names ascend is the
separate predicate `Table.Ascending`, which every operation keeps. What an operation does is said
through `Table.get?`.
-/
namespace Formwork

/-- Values by name, in ascending order of the names. -/
abbrev Table (α : Type) := List (String × α)

namespace Table

variable {α β : Type}

def empty : Table α := []

def get? (key : String) : Table α → Option α
  | [] => none
  | (k, v) :: t => if k = key then some v else get? key t

def has (key : String) (t : Table α) : Bool := (get? key t).isSome

def insert (key : String) (value : α) : Table α → Table α
  | [] => [(key, value)]
  | (k, v) :: t =>
    if key < k then (key, value) :: (k, v) :: t
    else if k = key then (key, value) :: t
    else (k, v) :: insert key value t

def erase (key : String) (t : Table α) : Table α := t.filter fun e => e.1 ≠ key

/-- The table of a list of pairs; a later pair replaces an earlier one of the same name. -/
def ofPairs (pairs : List (String × α)) : Table α :=
  pairs.foldl (fun t e => insert e.1 e.2 t) []

def names (t : Table α) : List String := t.map (·.1)

/-- The table with its values replaced. -/
def mapValues (f : α → β) (t : Table α) : Table β := t.map fun e => (e.1, f e.2)

/-- The table with the entries of `newer` written over those of `t`. -/
def override (t newer : Table α) : Table α := newer.foldl (fun acc e => insert e.1 e.2 acc) t

/-- The table with the value of a name changed, if the name has one. -/
def modify (key : String) (f : α → α) (t : Table α) : Table α :=
  t.map fun e => if e.1 = key then (e.1, f e.2) else e

/-- The names ascend, so that none occurs twice. -/
def Ascending (t : Table α) : Prop := t.Pairwise fun a b => a.1 < b.1

@[simp] theorem get?_nil (key : String) : get? key ([] : Table α) = none := rfl

@[simp] theorem get?_insert_self (key : String) (v : α) (t : Table α) :
    get? key (insert key v t) = some v := by
  induction t with
  | nil => simp [insert, get?]
  | cons e t ih =>
    obtain ⟨k, w⟩ := e
    by_cases hlt : key < k
    · simp [insert, hlt, get?]
    · by_cases heq : k = key
      · simp [insert, heq, get?]
      · simp [insert, hlt, heq, get?, ih]

theorem get?_insert_of_ne {key other : String} (h : other ≠ key) (v : α) (t : Table α) :
    get? other (insert key v t) = get? other t := by
  induction t with
  | nil => simp [insert, get?, h.symm]
  | cons e t ih =>
    obtain ⟨k, w⟩ := e
    by_cases hlt : key < k
    · simp [insert, hlt, get?, h.symm]
    · by_cases heq : k = key
      · subst heq
        simp [insert, get?, h.symm]
      · simp [insert, hlt, heq, get?, ih]

theorem get?_erase_self (key : String) (t : Table α) : get? key (erase key t) = none := by
  induction t with
  | nil => rfl
  | cons e t ih =>
    obtain ⟨k, w⟩ := e
    by_cases heq : k = key
    · simpa [erase, heq] using ih
    · simpa [erase, heq, get?] using ih

theorem get?_erase_of_ne {key other : String} (h : other ≠ key) (t : Table α) :
    get? other (erase key t) = get? other t := by
  induction t with
  | nil => rfl
  | cons e t ih =>
    obtain ⟨k, w⟩ := e
    by_cases heq : k = key
    · subst heq
      simpa [erase, get?, h.symm] using ih
    · by_cases hk : k = other
      · simp [erase, get?, hk, h]
      · simpa [erase, heq, get?, hk] using ih

end Table

end Formwork
