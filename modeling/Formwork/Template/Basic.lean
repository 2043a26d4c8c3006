import Formwork.Json.Basic
import Formwork.Text.Blank

/-!
# Templates

A template is a list of sections; a section has fields and further sections below it, and may repeat.
Properties that the program gives no meaning to are kept under `extra`. How templates are read and
written is in the modules beside this one.
-/
namespace Formwork

inductive ConditionKind where
  /-- Nothing. -/
  | always
  /-- That its value equals the expected one. -/
  | equals
  /-- That its value differs from the expected one. -/
  | notEquals
  /-- That it is filled in. -/
  | hasValue
deriving DecidableEq, Repr

inductive Combinator where
  /-- Both must hold. -/
  | and
  /-- One must hold. -/
  | or
deriving DecidableEq, Repr

structure Condition where
  fieldId : Option String
  kind : ConditionKind
  value : Json
  combinator : Combinator

/-- A single condition in the older short form. -/
structure ShortCondition where
  kind : ConditionKind
  fieldId : Option String
  value : Json

/-- The short form as a condition, unless it asks for nothing. -/
def ShortCondition.toCondition? (s : ShortCondition) : Option Condition :=
  if s.kind = .always then none else some ⟨s.fieldId, s.kind, s.value, .and⟩

/-- The conditions in force: those of the list, or the short form if the list is empty. -/
def effectiveConditions (conditions : List Condition) (short : ShortCondition) : List Condition :=
  if conditions.isEmpty then short.toCondition?.toList else conditions

inductive FieldKind where
  | text
  | textarea
  | number
  | select
  | multiselect
  | radio
  | checkbox
  | date
  | datetime
  | search
  | button
  | label
  | other
deriving DecidableEq, Repr

namespace FieldKind

def takesChoices : FieldKind → Bool
  | .select | .multiselect | .radio | .button => true
  | _ => false

def isMulti (k : FieldKind) : Bool := k = .multiselect

/-- Whether controls of this kind hold no data. -/
def isDecorative (k : FieldKind) : Bool := k = .label

end FieldKind

inductive FieldRole where
  /-- The field names whoever the document belongs to. -/
  | owner
deriving DecidableEq, Repr

/-- A pair of a field to fill and the path, in a selected object, of what to fill it with. -/
structure FillPair where
  target : String
  source : String
deriving DecidableEq, Repr

structure LookupSpec where
  entity : Option String
  method : Option String
  valuePath : Option String
  displayPaths : List String
  fill : List FillPair
  limit : Option Nat
deriving DecidableEq, Repr

def LookupSpec.none : LookupSpec := ⟨.none, .none, .none, [], [], .none⟩

structure Field where
  id : String
  kind : FieldKind
  name : String
  required : Bool
  dataSource : Option String
  /-- The choices listed in the template. -/
  options : Option (List Json)
  conditions : List Condition
  visibility : ShortCondition
  lookup : Option LookupSpec
  /-- The value of a fresh control, `null` if the template gives none. -/
  defaultValue : Json
  isEnabled : Bool
  order : Option Binary64
  role : Option FieldRole
  maxOptions : Option Nat
  extra : Fields

structure RepeatSpec where
  enabled : Bool
  min : Option Nat
  max : Option Nat
  defaultCount : Option Nat
  label : Option String
  extra : Fields

structure Section where
  title : String
  order : Option Binary64
  baseKey : Option String
  repetition : Option RepeatSpec
  fields : List Field
  subsections : List Section
  conditions : List Condition
  visibility : ShortCondition
  isEnabled : Bool
  step : Option String
  extra : Fields

structure Template where
  id : Option String
  sections : List Section
  /-- Handed to the host with every request for choices. -/
  moduleHints : List String
  extra : Fields

def Template.empty : Template := ⟨none, [], [], []⟩

/-- How the section repeats, if it does. -/
def Section.repeats? (s : Section) : Option RepeatSpec := s.repetition.filter (·.enabled)

/-- The steps that sections are tagged with, each once and in the order of the sections. -/
def Template.steps (t : Template) : List String :=
  t.sections.foldl (fun steps s =>
    match s.step with
    | some step => if step ∈ steps then steps else steps ++ [step]
    | none => steps) []

end Formwork
