import Formwork.Choice.Basic
import Formwork.Condition
import Mathlib.Data.List.TakeWhile

/-!
# Values that stand for the same

Loose equality is an equivalence: two values are loosely equal if what is compared of them is the same,
which is the text of a scalar, and otherwise the value with every zero written alike. Loosely equal values
are both filled in or both not, meet the same conditions, link to the same rows and are among the same
choices.
-/
namespace Formwork

/-- The number with zero written without a sign. -/
def Number.canonical : Number → Number
  | .int z => .int z
  | .float x => .float (if x.units = 0 then .zero false else x)

theorem Number.same_iff (m n : Number) : m.same n = true ↔ m.canonical = n.canonical := by
  cases m with
  | int a => cases n <;> simp [same, canonical]
  | float x =>
    cases n with
    | int b => simp [same, canonical]
    | float y =>
      obtain ⟨sign, units⟩ := x
      obtain ⟨sign', units'⟩ := y
      simp only [same, canonical, Binary64.same, Number.float.injEq, Bool.and_eq_true,
        Bool.or_eq_true, decide_eq_true_eq]
      by_cases zero : units = 0 <;> by_cases zero' : units' = 0 <;>
        simp [zero, zero', Binary64.zero, Binary64.mk.injEq, eq_comm]
      exact and_comm

namespace Json

mutual

def canonical : Json → Json
  | .null => .null
  | .bool b => .bool b
  | .num n => .num n.canonical
  | .str s => .str s
  | .arr items => .arr (canonicalItems items)
  | .obj members => .obj (canonicalMembers members)

def canonicalItems : List Json → List Json
  | [] => []
  | v :: items => canonical v :: canonicalItems items

def canonicalMembers : List (String × Json) → List (String × Json)
  | [] => []
  | (k, v) :: members => (k, canonical v) :: canonicalMembers members

end

mutual

theorem same_iff : ∀ a b : Json, same a b = true ↔ a.canonical = b.canonical
  | .null, b => by cases b <;> simp [same, canonical]
  | .bool x, b => by cases b <;> simp [same, canonical]
  | .num m, b => by cases b <;> simp [same, canonical, Number.same_iff]
  | .str s, b => by cases b <;> simp [same, canonical]
  | .arr items, b => by
    cases b with
    | arr others => simp [same, canonical, sameItems_iff items others]
    | _ => simp [same, canonical]
  | .obj members, b => by
    cases b with
    | obj others => simp [same, canonical, sameMembers_iff members others]
    | _ => simp [same, canonical]

theorem sameItems_iff : ∀ a b : List Json, sameItems a b = true ↔ canonicalItems a = canonicalItems b
  | [], b => by cases b <;> simp [sameItems, canonicalItems]
  | v :: items, b => by
    cases b with
    | nil => simp [sameItems, canonicalItems]
    | cons w others => simp [sameItems, canonicalItems, same_iff v w, sameItems_iff items others]

theorem sameMembers_iff : ∀ a b : List (String × Json),
    sameMembers a b = true ↔ canonicalMembers a = canonicalMembers b
  | [], b => by cases b <;> simp [sameMembers, canonicalMembers]
  | (k, v) :: members, b => by
    cases b with
    | nil => simp [sameMembers, canonicalMembers]
    | cons e others =>
      obtain ⟨l, w⟩ := e
      simp [sameMembers, canonicalMembers, same_iff v w, sameMembers_iff members others]

end

theorem canonicalItems_eq_map (items : List Json) : canonicalItems items = items.map canonical := by
  induction items with
  | nil => rfl
  | cons v items ih => rw [canonicalItems, ih, List.map_cons]

theorem get?_canonicalMembers (key : String) (members : List (String × Json)) :
    Table.get? key (canonicalMembers members) = (Table.get? key members).map canonical := by
  induction members with
  | nil => rfl
  | cons e members ih =>
    obtain ⟨k, v⟩ := e
    by_cases here : k = key <;> simp [canonicalMembers, Table.get?, here, ih]

theorem unwrap_canonical (v : Json) : v.canonical.unwrap = v.unwrap.canonical := by
  cases v with
  | obj members =>
    simp only [canonical, unwrap, get?_canonicalMembers]
    cases Table.get? "value" members <;> simp [canonical]
  | _ => rfl

/-- A zero is shown without its sign. -/
theorem numberText_zero (negative : Bool) : numberText (.float (.zero negative)) = Text.ofInt 0 := by
  have small : (0 : Nat) < Nat.pow 10 15 := by decide
  simp [numberText, Number.toBinary64, Binary64.zero, Binary64.isIntegral, Binary64.truncated, small]

theorem numberText_canonical (n : Number) : numberText n.canonical = numberText n := by
  cases n with
  | int z => rfl
  | float x =>
    obtain ⟨negative, units⟩ := x
    by_cases zero : units = 0
    · subst zero
      exact (numberText_zero false).trans (numberText_zero negative).symm
    · simp [Number.canonical, zero]

theorem scalarText?_canonical (v : Json) : v.canonical.scalarText? = v.scalarText? := by
  unfold scalarText?
  rw [unwrap_canonical]
  cases v.unwrap <;> simp [canonical, numberText_canonical]

/-- What is compared of a value: its text if it is a scalar, and otherwise the value itself. -/
def compared (v : Json) : String ⊕ Json :=
  match v.scalarText? with
  | some text => .inl text
  | none => .inr v.unwrap

def sense (v : Json) : String ⊕ Json := v.canonical.compared

theorem looselyEqual_iff {v w : Json} : v.looselyEqual w = true ↔ v.sense = w.sense := by
  unfold looselyEqual sense compared
  simp only [scalarText?_canonical, unwrap_canonical]
  cases v.scalarText? <;> cases w.scalarText? <;> simp
  exact same_iff _ _

theorem scalarText?_eq (v : Json) : v.scalarText? = v.sense.getLeft? := by
  rw [sense, compared, scalarText?_canonical]
  cases v.scalarText? <;> rfl

/-- The values that a control holds: the items of a list, or else the value itself. -/
def parts (v : Json) : List Json :=
  match v.unwrap with
  | .arr items => items
  | w => [w]

theorem exists_part {v : Json} (filled : v.isFilled = true) : ∃ part, part ∈ v.parts := by
  unfold isFilled at filled
  unfold parts
  cases unwrapped : v.unwrap with
  | arr items =>
    rw [unwrapped] at filled
    cases items with
    | nil => cases filled
    | cons item items => exact ⟨item, List.mem_cons_self⟩
  | _ => exact ⟨_, List.mem_singleton_self _⟩

theorem parts_congr {v w : Json} (h : v.unwrap = w.unwrap) : v.parts = w.parts := by
  rw [parts, parts, h]

theorem parts_canonical (v : Json) : v.canonical.parts = v.parts.map canonical := by
  unfold parts
  rw [unwrap_canonical]
  cases v.unwrap <;> simp [canonical, canonicalItems_eq_map]

theorem map_sense_parts (v : Json) : v.parts.map sense = v.canonical.parts.map compared := by
  rw [parts_canonical, List.map_map]
  rfl

theorem isFilled_congr {v w : Json} (h : v.unwrap = w.unwrap) : v.isFilled = w.isFilled := by
  rw [isFilled, isFilled, h]

theorem isFilled_canonical (v : Json) : v.canonical.isFilled = v.isFilled := by
  unfold isFilled
  rw [unwrap_canonical]
  cases v.unwrap with
  | arr items => cases items <;> rfl
  | obj members => cases members <;> rfl
  | _ => rfl

/-- Two values of which a form sees the same, but for their shape. -/
structure Alike (v w : Json) : Prop where
  filled : v.isFilled = w.isFilled
  parts : v.parts.map sense = w.parts.map sense

theorem Alike.refl (v : Json) : v.Alike v := ⟨rfl, rfl⟩

/-- Lists whose items are loosely equal one by one. -/
theorem alike_arr {items others : List Json} (h : items.map sense = others.map sense) :
    (arr items).Alike (arr others) := by
  have length := congrArg List.length h
  simp only [List.length_map] at length
  refine ⟨?_, h⟩
  cases items <;> cases others <;> simp_all [isFilled, unwrap]

theorem numberText_ne_empty (n : Number) : numberText n ≠ "" := by
  have integer : ∀ z : Int, Text.ofInt z ≠ "" := by
    intro z
    cases z <;> simp [Text.ofInt, Text.ofNat, Text.numeral_ne_nil]
  have decimal : ∀ d : Decimal, decimalText d ≠ "" := by
    intro d
    unfold decimalText
    dsimp only
    split
    · simp
    · split
      · simp
      · split <;> simp
  unfold numberText
  dsimp only
  split
  · exact integer _
  · cases n with
    | int z => exact integer z
    | float x =>
      by_cases zero : x.isZero <;> simp [Number.text, Binary64.text, zero, decimal]

/-- A text is blank if nothing is left of it without the blanks around it. -/
theorem trim_eq_empty_iff {s : String} : Text.trim s = "" ↔ Text.isBlankText s = true := by
  rw [Text.trim, String.ofList_eq_empty_iff, Text.trimChars, List.reverse_eq_nil_iff,
    List.dropWhile_eq_nil_iff, Text.isBlankText, List.all_eq_true]
  constructor
  · intro blank c hc
    rw [← List.takeWhile_append_dropWhile (p := Text.isBlank) (l := s.toList), List.mem_append] at hc
    rcases hc with front | rest
    · exact List.mem_takeWhile_imp front
    · exact blank c (List.mem_reverse.2 rest)
  · intro blank c hc
    exact blank c ((List.dropWhile_sublist _).subset (List.mem_reverse.1 hc))

/-- A scalar is filled in just if its text is not empty, and then it is its own only part. -/
theorem of_scalarText? {v : Json} {text : String} (h : v.scalarText? = some text) :
    v.isFilled = decide (text ≠ "") ∧ v.parts.map sense = [.inl text] := by
  unfold scalarText? at h
  unfold isFilled parts
  cases unwrapped : v.unwrap <;> rw [unwrapped] at h
  case str s =>
    obtain rfl := Option.some.inj h
    refine ⟨?_, rfl⟩
    cases blank : Text.isBlankText s <;> simp [trim_eq_empty_iff, blank]
  case bool b =>
    obtain rfl := Option.some.inj h
    cases b <;> exact ⟨rfl, rfl⟩
  case num n =>
    obtain rfl := Option.some.inj h
    refine ⟨?_, ?_⟩
    · simp [numberText_ne_empty]
    · simp [sense, compared, canonical, scalarText?, unwrap, numberText_canonical]
  all_goals cases h

theorem alike_of_looselyEqual {v w : Json} (h : v.looselyEqual w = true) : v.Alike w := by
  have same := looselyEqual_iff.1 h
  have text' : w.scalarText? = v.scalarText? := by rw [scalarText?_eq, scalarText?_eq, same]
  cases text : v.scalarText? with
  | some s =>
    obtain ⟨filled, parts⟩ := of_scalarText? text
    obtain ⟨filled', parts'⟩ := of_scalarText? (text'.trans text)
    exact ⟨filled.trans filled'.symm, parts.trans parts'.symm⟩
  | none =>
    have unwrapped : v.canonical.unwrap = w.canonical.unwrap := by
      rw [sense, sense, compared, compared, scalarText?_canonical, scalarText?_canonical, text', text]
        at same
      exact Sum.inr.inj same
    constructor
    · rw [← isFilled_canonical v, isFilled_congr unwrapped, isFilled_canonical]
    · rw [map_sense_parts, map_sense_parts, parts_congr unwrapped]

end Json

namespace Choice

theorem allow_iff {choices : List Choice} {v : Json} :
    allow choices v = true ↔
      ∀ part ∈ v.parts, ∃ c ∈ choices, c.value.looselyEqual part = true := by
  unfold allow Json.parts
  cases v.unwrap <;> simp

theorem scalarTexts_unwrap (v : Json) :
    scalarTexts v.unwrap = (v.parts.map Json.sense).filterMap Sum.getLeft? := by
  have told : Sum.getLeft? ∘ Json.sense = Json.scalarText? := funext fun u => u.scalarText?_eq.symm
  rw [List.filterMap_map, told]
  unfold Json.parts
  cases v.unwrap <;> simp [scalarTexts, List.filterMap_cons, Option.toList] <;> split <;> simp_all

end Choice

namespace Json

theorem meets_eq (v expected : Json) :
    v.meets expected = (v.parts.map sense).any fun s =>
      (match expected with
        | .arr wanted => wanted
        | w => [w]).any fun w => textsEqual (s.getLeft?.getD "") (w.scalarText?.getD "") := by
  simp only [List.any_map, Function.comp_def, ← scalarText?_eq]
  unfold meets parts
  cases v.unwrap <;> cases expected <;> simp [conditionEquals]

namespace Alike

variable {v w : Json} (h : v.Alike w)

include h

theorem meets (expected : Json) : v.meets expected = w.meets expected := by
  rw [meets_eq, meets_eq, h.parts]

theorem accepts (c : Condition) : c.accepts v = c.accepts w := by
  unfold Condition.accepts
  rw [h.filled, h.meets]

theorem narrow (choices : List Choice) (link : String) :
    Choice.narrow choices link v = Choice.narrow choices link w := by
  have links : Choice.linksTo v = Choice.linksTo w := by
    funext named
    rw [Choice.linksTo, Choice.linksTo, Choice.scalarTexts_unwrap v, h.parts,
      ← Choice.scalarTexts_unwrap]
  rw [Choice.narrow, Choice.narrow, h.filled, links]

theorem allow (choices : List Choice) : Choice.allow choices v = Choice.allow choices w := by
  have told : ∀ u : Json, Choice.allow choices u = true ↔
      ∀ s ∈ u.parts.map sense, ∃ c ∈ choices, c.value.sense = s := by
    intro u
    rw [Choice.allow_iff, List.forall_mem_map]
    simp only [looselyEqual_iff]
  exact Bool.eq_iff_iff.2 ((told v).trans (h.parts ▸ (told w).symm))

end Alike

end Json

end Formwork
