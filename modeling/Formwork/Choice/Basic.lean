import Formwork.Config
import Formwork.Text.Case
import Formwork.Value.Basic

/-!
# Choices

A choice is a value with the label under which it is offered. Choices are listed in a template or come
as rows from a source; rows are of any shape, and value and label are found under the conventional
names that the configuration lists.
-/
namespace Formwork

structure Choice where
  value : Json
  label : String
  /-- The entry or row from which the choice was made. -/
  raw : Json

namespace Choice

def same (a b : Choice) : Bool := a.value == b.value && a.label == b.label && a.raw == b.raw

instance : BEq Choice := ⟨same⟩

/-- The choice as a value; an entry that is `null` is left out. -/
def toJson (c : Choice) : Json :=
  Json.object <|
    [("value", c.value), ("label", .str c.label)] ++
      if c.raw.isNull then [] else [("raw", c.raw)]

/-- The value under the first of the names that has one other than `null`. -/
def firstOf? (names : List String) (row : Fields) : Option Json :=
  names.findSome? fun name => (Table.get? name row).filter fun v => !v.isNull

/-- The first text in the row that is not blank and stands under none of the names. -/
def firstTextBeside? (names : List String) (row : Fields) : Option String :=
  row.findSome? fun e =>
    if e.1 ∈ names then none else e.2.text?.filter fun s => !Text.isBlankText s

def ofScalar (entry : Json) : Choice := ⟨entry, entry.displayText, entry⟩

/-- The choice for an entry of a template. Without a value the label is the value, and the whole entry
as text if there is no label either. -/
def ofEntry (config : Config) (entry : Json) : Choice :=
  match entry with
  | .obj row =>
    let label? := (firstOf? config.labelProperties row).map Json.displayText
    let value := (firstOf? config.valueProperties row).getD (.str (label?.getD entry.render))
    ⟨value, label?.getD value.displayText, entry⟩
  | _ => ofScalar entry

def preferredLabel? (config : Config) (source : String) (row : Fields) : Option String := do
  let name ← Table.get? source config.preferredLabels
  let value ← Table.get? name row
  let _ ← value.scalarText?.filter (· ≠ "")
  some value.displayText

/-- The choice for a row of a source. The label stands under the property preferred for the source,
under a conventional one, or is the first text in the row that may serve as one. -/
def ofRow (config : Config) (source : String) (entry : Json) : Choice :=
  match entry with
  | .obj row =>
    let value := (firstOf? config.valueProperties row).getD (.str entry.render)
    let label? := (preferredLabel? config source row).or <|
      ((firstOf? config.labelProperties row).map Json.displayText).or <|
        firstTextBeside? config.labelSkipProperties row
    ⟨value, label?.getD value.displayText, entry⟩
  | _ => ofScalar entry

def isYesNoPair (choices : List Choice) : Bool :=
  match choices.map fun c => Text.lowercase (Text.trim c.label) with
  | [a, b] => (a = "yes" && b = "no") || (a = "no" && b = "yes")
  | _ => false

/-- The scalar texts of a value: those of its items if it is a list. -/
def scalarTexts : Json → List String
  | .arr items => items.filterMap Json.scalarText?
  | v => v.scalarText?.toList

/-- Whether a link names the value of the control it refers to, or one of its values. -/
def linksTo (parent link : Json) : Bool :=
  (scalarTexts link).any fun s => (scalarTexts parent.unwrap).contains s

/-- The choices whose row links to the value under a property; none if the value is not filled in. -/
def narrow (choices : List Choice) (link : String) (parent : Json) : List Choice :=
  if parent.isFilled then
    choices.filter fun c => ((c.raw.member? link).map (linksTo parent)).getD false
  else []

/-- The choice's own spelling of a value, if there is one. -/
def exact (choices : List Choice) (v : Json) : Json :=
  ((choices.find? fun c => c.value.looselyEqual v).map Choice.value).getD v

/-- Whether a value, or each item of a list, is among the choices. -/
def allow (choices : List Choice) (v : Json) : Bool :=
  match v.unwrap with
  | .arr items => items.all fun item => choices.any fun c => c.value.looselyEqual item
  | w => choices.any fun c => c.value.looselyEqual w

end Choice

end Formwork
