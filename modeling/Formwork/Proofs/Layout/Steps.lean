import Formwork.Tree.Build

/-!
# The steps of laying out

A section is laid out by naming it, settling its count if it repeats, and laying out the fields and the
subsections of each of its instances. What stands between one step and the next is the progress alone.
-/
namespace Formwork

section

variable {α β σ : Type} (step : σ → α → β × σ)

@[simp] theorem threaded_nil (s : σ) : threaded step s [] = ([], s) := rfl

@[simp] theorem threaded_cons (s : σ) (item : α) (rest : List α) :
    threaded step s (item :: rest) =
      ((step s item).1 :: (threaded step (step s item).2 rest).1,
        (threaded step (step s item).2 rest).2) := rfl

theorem threaded_append (s : σ) (l m : List α) :
    threaded step s (l ++ m) =
      ((threaded step s l).1 ++ (threaded step (threaded step s l).2 m).1,
        (threaded step (threaded step s l).2 m).2) := by
  induction l generalizing s with
  | nil => rfl
  | cons item l ih => simp [ih]

@[simp] theorem length_threaded (s : σ) (l : List α) : (threaded step s l).1.length = l.length := by
  induction l generalizing s with
  | nil => rfl
  | cons item l ih => simp [ih]

end

namespace Blueprint

def layOutBody (layout : Layout) (scope : Scope) (fields : List Field)
    (subsections : List Blueprint) (p : Progress) : (List PlacedField × List Group) × Progress :=
  let placed := threaded (Progress.placeField scope) p fields
  let below := layOutList layout scope placed.2 subsections
  ((placed.1, below.1), below.2)

/-- The scope of an instance of a repeated group. -/
def instanceScope (scope : Scope) (key : String) (index : Nat) : Scope := scope ++ [⟨key ++ "_", index⟩]

def layOutInstance (layout : Layout) (scope : Scope) (key caption : String) (fields : List Field)
    (subsections : List Blueprint) (p : Progress) (index : Nat) : GroupInstance × Progress :=
  let body := layOutBody layout (instanceScope scope key index) fields subsections p
  (⟨some index, some (caption ++ " " ++ Text.ofNat index), body.1.1, body.1.2⟩, body.2)

/-- The name that a section asks for. -/
def candidate (scope : Scope) (s : Section) : String :=
  scope.opening ++ Identifier.ofSection s.title s.baseKey

variable (layout : Layout) (kind : GroupKind) (scope : Scope) (p : Progress) {s : Section}
  (fields : List Field) (subsections : List Blueprint)

theorem layOut_of_plain (h : s.repeats? = none) :
    let named := p.nameGroup (candidate scope s)
    let body := layOutBody layout scope fields subsections named.2
    layOut layout kind scope p ⟨s, fields, subsections⟩ =
      (⟨named.1, s.title, kind, s.isEnabled, effectiveConditions s.conditions s.visibility, scope, none,
        [⟨none, none, body.1.1, body.1.2⟩]⟩, body.2) := by
  simp only [layOut, h]
  rfl

theorem layOut_of_repeated {spec : RepeatSpec} (h : s.repeats? = some spec) :
    let named := p.nameGroup (candidate scope s)
    let settled := named.2.settle (.ofSection named.1 kind s spec layout.fallbackMax) layout.stored
    let instances := threaded
      (layOutInstance layout scope named.1 (s.instanceLabel spec) fields subsections) settled.2
      (List.range' 1 settled.1)
    layOut layout kind scope p ⟨s, fields, subsections⟩ =
      (⟨named.1, s.title, kind, s.isEnabled, effectiveConditions s.conditions s.visibility, scope,
        some named.1, instances.1⟩, instances.2) := by
  simp only [layOut, h]
  rfl

theorem layOutList_cons (b : Blueprint) (rest : List Blueprint) :
    layOutList layout scope p (b :: rest) =
      ((layOut layout .subsection scope p b).1 ::
        (layOutList layout scope (layOut layout .subsection scope p b).2 rest).1,
        (layOutList layout scope (layOut layout .subsection scope p b).2 rest).2) := by
  rw [layOutList]

end Blueprint

end Formwork
