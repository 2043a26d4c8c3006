import Formwork.Template.Basic

/-!
# Sections in declared order

The sections, subsections and fields of a template carry an optional order. A blueprint is a section
with its parts arranged by it, at every depth: ascending, parts without an order after all others, and
parts of one order as in the template.
-/
namespace Formwork

/-- Whether something of the first order may stand before something of the second. -/
def mayPrecede : Option Binary64 → Option Binary64 → Bool
  | _, none => true
  | none, some _ => false
  | some a, some b => a.orderKey ≤ b.orderKey

/-- Puts an item before the first one that it may precede. -/
def insertInOrder {α : Type} (order : α → Option Binary64) (item : α) : List α → List α
  | [] => [item]
  | next :: rest =>
    if mayPrecede (order item) (order next) then item :: next :: rest
    else next :: insertInOrder order item rest

/-- The items in declared order; those of one order keep their places. -/
def inDeclaredOrder {α : Type} (order : α → Option Binary64) (items : List α) : List α :=
  items.foldr (insertInOrder order) []

theorem insertInOrder_perm {α : Type} (order : α → Option Binary64) (item : α) (items : List α) :
    (insertInOrder order item items).Perm (item :: items) := by
  induction items with
  | nil => exact .refl _
  | cons next rest ih =>
    unfold insertInOrder
    split
    · exact .refl _
    · exact (ih.cons next).trans (.swap item next rest)

/-- Arranging loses nothing and repeats nothing. -/
theorem inDeclaredOrder_perm {α : Type} (order : α → Option Binary64) (items : List α) :
    (inDeclaredOrder order items).Perm items := by
  induction items with
  | nil => exact .refl _
  | cons item rest ih => exact (insertInOrder_perm order item _).trans (ih.cons item)

/-- A section with its parts in declared order. -/
structure Blueprint where
  source : Section
  fields : List Field
  subsections : List Blueprint

namespace Blueprint

def order (b : Blueprint) : Option Binary64 := b.source.order

mutual

def ofSection : Section → Blueprint
  | s@⟨_, _, _, _, fields, subsections, _, _, _, _, _⟩ =>
    ⟨s, inDeclaredOrder Field.order fields, inDeclaredOrder order (ofSections subsections)⟩

def ofSections : List Section → List Blueprint
  | [] => []
  | s :: rest => ofSection s :: ofSections rest

end

end Blueprint

/-- Whether the section is shown in a step: it is tagged with it or with none, or no step is
active. -/
def Section.shownIn (active : Option String) (s : Section) : Bool :=
  match active, s.step with
  | some step, some tag => step = tag
  | _, _ => true

/-- The sections shown in a step, arranged. -/
def Template.blueprints (active : Option String) (t : Template) : List Blueprint :=
  inDeclaredOrder Blueprint.order (Blueprint.ofSections (t.sections.filter (·.shownIn active)))

mutual

/-- The ids of the fields in each instance of a section, apart from those of repeated sections
below. -/
def Section.repeatedFieldIds : Section → List String
  | ⟨_, _, _, _, fields, subsections, _, _, _, _, _⟩ =>
    fields.map Field.id ++ Section.listRepeatedFieldIds subsections

def Section.listRepeatedFieldIds : List Section → List String
  | [] => []
  | s :: rest =>
    (if s.repeats?.isSome then [] else Section.repeatedFieldIds s) ++
      Section.listRepeatedFieldIds rest

end

end Formwork
