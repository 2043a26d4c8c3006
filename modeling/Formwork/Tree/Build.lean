import Formwork.Repeat.Registry
import Formwork.Tree.Blueprint
import Formwork.Tree.Naming

/-!
# Laying out a tree

A tree is laid out from the top down in document order. On the way the counts of repeated groups are
settled and recorded, and names that clash with earlier ones are changed: a control identifier gets
two underscores and a number, a group key just a number, because a key with an underscore and a number
would read as an instance of the other group.
-/
namespace Formwork

/-- Applies a step to each item from left to right, handing a state on from step to step. -/
def threaded {α β σ : Type} (step : σ → α → β × σ) : σ → List α → List β × σ
  | state, [] => ([], state)
  | state, item :: rest =>
    let first := step state item
    let others := threaded step first.2 rest
    (first.1 :: others.1, others.2)

structure Layout where
  /-- The step to show; all of them if there is none. -/
  step : Option String
  /-- The document that tells counts which are not recorded yet. -/
  stored : Fields
  /-- The greatest count of a repetition that declares none. -/
  fallbackMax : Nat

/-- How far a tree is laid out: the counts so far and the names given. -/
structure Progress where
  registry : Registry
  controlIds : List String
  groupKeys : List String

namespace Progress

def nameControl (candidate : String) (p : Progress) : String × Progress :=
  let id := unusedName candidate (fun n => candidate ++ "__" ++ Text.ofNat n) p.controlIds
  (id, { p with controlIds := id :: p.controlIds })

def nameGroup (candidate : String) (p : Progress) : String × Progress :=
  let key := unusedName candidate (fun n => candidate ++ Text.ofNat n) p.groupKeys
  (key, { p with groupKeys := key :: p.groupKeys })

def placeField (scope : Scope) (p : Progress) (f : Field) : PlacedField × Progress :=
  let named := p.nameControl (scope.identifier f.id)
  (⟨named.1, scope, effectiveConditions f.conditions f.visibility, f⟩, named.2)

/-- Settles the count of a repeated group and registers it. -/
def settle (entry : RepeatEntry) (stored : Fields) (p : Progress) : Nat × Progress :=
  let count := p.registry.countFor entry stored
  (count, { p with registry := (p.registry.recordCount entry.key count).register entry })

end Progress

/-- What instances of a section are called: the label of the repetition, or the title if that is
blank. -/
def Section.instanceLabel (s : Section) (spec : RepeatSpec) : String :=
  (spec.label.filter fun l => !Text.isBlankText l).getD s.title

def RepeatEntry.ofSection (key : String) (kind : GroupKind) (s : Section) (spec : RepeatSpec)
    (fallbackMax : Nat) : RepeatEntry where
  key := key
  owner := kind
  stem := key ++ "_"
  fieldIds := s.repeatedFieldIds
  bounds := .ofSpec spec fallbackMax
  label := spec.label

namespace Blueprint

mutual

def layOut (layout : Layout) (kind : GroupKind) (scope : Scope) (p : Progress) :
    Blueprint → Group × Progress
  | ⟨s, fields, subsections⟩ =>
    let named := p.nameGroup (scope.opening ++ Identifier.ofSection s.title s.baseKey)
    let conditions := effectiveConditions s.conditions s.visibility
    match s.repeats? with
    | none =>
      let placed := threaded (Progress.placeField scope) named.2 fields
      let below := layOutList layout scope placed.2 subsections
      (⟨named.1, s.title, kind, s.isEnabled, conditions, scope, none,
        [⟨none, none, placed.1, below.1⟩]⟩, below.2)
    | some spec =>
      let entry := RepeatEntry.ofSection named.1 kind s spec layout.fallbackMax
      let settled := named.2.settle entry layout.stored
      let instances := threaded (fun (p : Progress) (index : Nat) =>
        let inner := scope ++ [⟨entry.stem, index⟩]
        let placed := threaded (Progress.placeField inner) p fields
        let below := layOutList layout inner placed.2 subsections
        let label := s.instanceLabel spec ++ " " ++ Text.ofNat index
        ((⟨some index, some label, placed.1, below.1⟩ : GroupInstance), below.2))
        settled.2 (List.range' 1 settled.1)
      (⟨named.1, s.title, kind, s.isEnabled, conditions, scope, some named.1, instances.1⟩,
        instances.2)

/-- Lays out subsections one after another. -/
def layOutList (layout : Layout) (scope : Scope) (p : Progress) :
    List Blueprint → List Group × Progress
  | [] => ([], p)
  | b :: rest =>
    let first := layOut layout .subsection scope p b
    let others := layOutList layout scope first.2 rest
    (first.1 :: others.1, others.2)

end

end Blueprint

/-- Lays out a template. The groups registered afterwards are those of the tree. -/
def FormTree.build (layout : Layout) (t : Template) (registry : Registry) : FormTree × Registry :=
  let start : Progress := ⟨registry.clearEntries, [], []⟩
  let groups := threaded (Blueprint.layOut layout .topSection []) start (t.blueprints layout.step)
  (⟨groups.1⟩, groups.2.registry)

end Formwork
