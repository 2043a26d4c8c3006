import Formwork.Proofs.Layout.Records
import Formwork.Proofs.Removal.Shifting
import Formwork.Proofs.Removal.Trees

/-!
# Laying out an instance one number lower

Inside an instance of a repeated group all names begin with the number of the instance. Laid out with a
lower number, and with the counts of the groups inside it moved along, it comes out the same but for that
number: whatever clashes there are among the names in it, they are resolved alike.
-/
namespace Formwork

open Progress Blueprint

namespace Removal

structure MovedScope (r : Removal) (n : Nat) (scope scope' : Scope) : Prop where
  opening : ∃ rest, scope.opening = r.opening n ++ rest ∧ scope'.opening = r.opening (n - 1) ++ rest
  frames : scope' = scope.map r.renamedFrame

structure Beside (r : Removal) (n : Nat) (outset : Registry) (p q : Progress) : Prop where
  controls : ∀ rest, r.opening n ++ rest ∈ p.controlIds ↔ r.opening (n - 1) ++ rest ∈ q.controlIds
  groups : ∀ rest, r.opening n ++ rest ∈ p.groupKeys ↔ r.opening (n - 1) ++ rest ∈ q.groupKeys
  distinct : p.Distinct
  distinct' : q.Distinct
  untouched : q.Untouched outset

variable {r : Removal} {n : Nat} {outset : Registry} {p q : Progress} {scope scope' : Scope}

theorem Beside.controlName (h : r.Beside n outset p q) (candidate : String) :
    ∃ rest, p.controlName (r.opening n ++ candidate) = r.opening n ++ rest ∧
      q.controlName (r.opening (n - 1) ++ candidate) = r.opening (n - 1) ++ rest := by
  have clashes : ∀ m,
      variant (r.opening n ++ candidate) (controlVariant (r.opening n ++ candidate)) m ∈
        p.controlIds ↔
      variant (r.opening (n - 1) ++ candidate) (controlVariant (r.opening (n - 1) ++ candidate)) m ∈
        q.controlIds := by
    intro m
    rw [variant_control_append, variant_control_append]
    exact h.controls _
  obtain ⟨m, chosen, chosen'⟩ := unusedName_parallel _ (controlVariant_injective _) p.controlIds _
    (controlVariant_injective _) clashes
  rw [variant_control_append] at chosen chosen'
  exact ⟨_, chosen, chosen'⟩

theorem Beside.groupName (h : r.Beside n outset p q) (candidate : String) :
    ∃ rest, p.groupName (r.opening n ++ candidate) = r.opening n ++ rest ∧
      q.groupName (r.opening (n - 1) ++ candidate) = r.opening (n - 1) ++ rest := by
  have clashes : ∀ m,
      variant (r.opening n ++ candidate) (groupVariant (r.opening n ++ candidate)) m ∈
        p.groupKeys ↔
      variant (r.opening (n - 1) ++ candidate) (groupVariant (r.opening (n - 1) ++ candidate)) m ∈
        q.groupKeys := by
    intro m
    rw [variant_group_append, variant_group_append]
    exact h.groups _
  obtain ⟨m, chosen, chosen'⟩ := unusedName_parallel _ (groupVariant_injective _) p.groupKeys _
    (groupVariant_injective _) clashes
  rw [variant_group_append] at chosen chosen'
  exact ⟨_, chosen, chosen'⟩

theorem mem_cons_append_iff {front front' rest : String} {l l' : List String}
    (h : ∀ rest, front ++ rest ∈ l ↔ front' ++ rest ∈ l') (other : String) :
    front ++ other ∈ (front ++ rest) :: l ↔ front' ++ other ∈ (front' ++ rest) :: l' := by
  rw [List.mem_cons, List.mem_cons, String.append_right_inj, String.append_right_inj, h]

theorem Beside.nameGroup (scopes : r.MovedScope n scope scope') (h : r.Beside n outset p q)
    (s : Section) :
    ∃ rest, p.groupName (candidate scope s) = r.opening n ++ rest ∧
      q.groupName (candidate scope' s) = r.opening (n - 1) ++ rest ∧
      r.Beside n outset (p.nameGroup (candidate scope s)).2 (q.nameGroup (candidate scope' s)).2 := by
  obtain ⟨front, opening, opening'⟩ := scopes.opening
  obtain ⟨rest, named, named'⟩ := h.groupName (front ++ Identifier.ofSection s.title s.baseKey)
  rw [← String.append_assoc, ← opening] at named
  rw [← String.append_assoc, ← opening'] at named'
  refine ⟨rest, named, named', h.controls, fun other => ?_, h.distinct.nameGroup _,
    h.distinct'.nameGroup _, fun key unnamed => ?_⟩
  · rw [nameGroup_eq, nameGroup_eq]
    dsimp only [candidate]
    rw [named, named']
    exact mem_cons_append_iff h.groups other
  · exact h.untouched key fun there => unnamed (List.mem_cons_of_mem _ there)

section

variable (limit : r.count < Slot.indexLimit) (after : r.index < n) (last : n ≤ r.count)

include limit after last

theorem renamed_opening (rest : String) :
    r.renamed (r.opening n ++ rest) = r.opening (n - 1) ++ rest := by
  rw [renamed, rename?_opening limit last after, Option.getD_some]

theorem MovedScope.instanceScope (h : r.MovedScope n scope scope') (rest : String)
    (index : Nat) :
    r.MovedScope n (instanceScope scope (r.opening n ++ rest) index)
      (instanceScope scope' (r.opening (n - 1) ++ rest) index) := by
  refine ⟨⟨rest ++ "_" ++ Text.ofNat index ++ "_", ?_, ?_⟩, ?_⟩
  · simp only [opening_instanceScope, String.append_assoc]
  · simp only [opening_instanceScope, String.append_assoc]
  · have longer : r.opening n ++ rest ++ "_" ≠ r.stem := by
      intro same
      have lengths := congrArg (fun s => s.toList.length) same
      simp only [Removal.opening, Frame.opening, String.toList_append, List.length_append] at lengths
      simp at lengths
      omega
    have frame : r.renamedFrame ⟨r.opening n ++ rest ++ "_", index⟩ =
        ⟨r.opening (n - 1) ++ rest ++ "_", index⟩ := by
      rw [renamedFrame, if_neg longer, String.append_assoc, renamed_opening limit after last,
        String.append_assoc]
    rw [Blueprint.instanceScope, Blueprint.instanceScope, h.frames, List.map_append, List.map_cons,
      frame]
    rfl

theorem placeField_beside (scopes : r.MovedScope n scope scope') (h : r.Beside n outset p q)
    (f : Field) :
    (placeField scope' q f).1 = r.renamedField (placeField scope p f).1 ∧
      r.Beside n outset (placeField scope p f).2 (placeField scope' q f).2 := by
  obtain ⟨front, opening, opening'⟩ := scopes.opening
  obtain ⟨rest, named, named'⟩ := h.controlName (front ++ Identifier.ofRaw f.id)
  rw [← String.append_assoc, ← opening, ← Scope.identifier_eq] at named
  rw [← String.append_assoc, ← opening', ← Scope.identifier_eq] at named'
  constructor
  · have renamed : r.renamed (p.controlName (scope.identifier f.id)) =
        q.controlName (scope'.identifier f.id) := by
      rw [named, named', renamed_opening limit after last]
    rw [placeField_eq, placeField_eq, renamedField, renamed, ← scopes.frames]
  · refine ⟨fun other => ?_, h.groups, h.distinct.nameControl _, h.distinct'.nameControl _, h.untouched⟩
    rw [placeField_eq, placeField_eq, named, named']
    exact mem_cons_append_iff h.controls other

theorem placeFields_beside (scopes : r.MovedScope n scope scope') (h : r.Beside n outset p q)
    (fields : List Field) :
    (threaded (placeField scope') q fields).1 =
        (threaded (placeField scope) p fields).1.map r.renamedField ∧
      r.Beside n outset (threaded (placeField scope) p fields).2
        (threaded (placeField scope') q fields).2 := by
  induction fields generalizing p q with
  | nil => exact ⟨rfl, h⟩
  | cons f fields ih =>
    obtain ⟨first, beside⟩ := placeField_beside limit after last scopes h f
    obtain ⟨others, beside'⟩ := ih beside
    rw [threaded_cons, threaded_cons]
    exact ⟨by rw [first, others, List.map_cons], beside'⟩

end

/-- Laying out a form in which instance `n` is now the one before it: the counts known in the end of the
old form have moved along in those from which the new one is laid out. -/
structure Moves (r : Removal) (n : Nat) (layout layout' : Layout) (final outset : Registry) : Prop where
  limit : r.count < Slot.indexLimit
  after : r.index < n
  last : n ≤ r.count
  fallback : layout'.fallbackMax = layout.fallbackMax
  moved : ∀ rest c, final.count? (r.opening n ++ rest) = some c →
    outset.count? (r.opening (n - 1) ++ rest) = some c

variable {layout layout' : Layout} {final : Registry}

section

variable (moves : r.Moves n layout layout' final outset)

include moves

/-- The count of a group inside is settled again as it was. -/
theorem Beside.settled (scopes : r.MovedScope n scope scope') (h : r.Beside n outset p q)
    (kind : GroupKind) (s : Section) (spec : RepeatSpec)
    (lasts : (settled layout kind scope s spec p).2.Lasts final) :
    (Blueprint.settled layout' kind scope' s spec q).1 =
        (Blueprint.settled layout kind scope s spec p).1 ∧
      r.Beside n outset (Blueprint.settled layout kind scope s spec p).2
        (Blueprint.settled layout' kind scope' s spec q).2 := by
  obtain ⟨rest, named, named', beside⟩ := h.nameGroup scopes s
  obtain ⟨recorded, -⟩ := count?_of_lasts layout kind scope s spec lasts
  rw [named] at recorded
  have recorded' := moves.moved rest _ recorded
  rw [← named'] at recorded'
  constructor
  · obtain ⟨c, clamped⟩ := settled_eq_clamp layout kind scope s spec (p := p)
    rw [settled_of_untouched layout' kind scope' s spec h.untouched recorded', clamped, moves.fallback]
    exact RepeatBounds.clamp_clamp _ c
  · exact ⟨beside.controls, beside.groups, distinct_settled layout kind scope s spec h.distinct,
      distinct_settled layout' kind scope' s spec h.distinct',
      untouched_settled layout' kind scope' s spec h.untouched⟩

variable (fields : List Field) {subsections : List Blueprint}

theorem layOutBody_beside (scopes : r.MovedScope n scope scope')
    (below : ∀ {p q : Progress}, r.Beside n outset p q →
      (layOutList layout scope p subsections).2.Lasts final →
      (layOutList layout' scope' q subsections).1 =
          r.renamedGroups (layOutList layout scope p subsections).1 ∧
        r.Beside n outset (layOutList layout scope p subsections).2
          (layOutList layout' scope' q subsections).2)
    (h : r.Beside n outset p q)
    (lasts : (layOutBody layout scope fields subsections p).2.Lasts final) :
    let body := layOutBody layout scope fields subsections p
    let body' := layOutBody layout' scope' fields subsections q
    body'.1 = (body.1.1.map r.renamedField, r.renamedGroups body.1.2) ∧
      r.Beside n outset body.2 body'.2 := by
  obtain ⟨placed, beside⟩ := placeFields_beside moves.limit moves.after moves.last scopes h fields
  obtain ⟨groups, beside'⟩ := below beside lasts
  refine ⟨?_, beside'⟩
  unfold layOutBody
  dsimp only
  rw [placed, groups]

/-- The instances of a group inside, given what is laid out in each of them. -/
theorem layOutInstances_beside (caption rest : String)
    (below : ∀ (index : Nat) {p q : Progress}, r.Beside n outset p q →
      (layOutList layout (instanceScope scope (r.opening n ++ rest) index) p subsections).2.Lasts final →
      (layOutList layout' (instanceScope scope' (r.opening (n - 1) ++ rest) index) q subsections).1 =
          r.renamedGroups
            (layOutList layout (instanceScope scope (r.opening n ++ rest) index) p subsections).1 ∧
        r.Beside n outset
          (layOutList layout (instanceScope scope (r.opening n ++ rest) index) p subsections).2
          (layOutList layout' (instanceScope scope' (r.opening (n - 1) ++ rest) index) q subsections).2)
    (scopes : r.MovedScope n scope scope') (h : r.Beside n outset p q) (indices : List Nat) :
    let laid := threaded
      (layOutInstance layout scope (r.opening n ++ rest) caption fields subsections) p indices
    let laid' := threaded
      (layOutInstance layout' scope' (r.opening (n - 1) ++ rest) caption fields subsections) q indices
    laid.2.Lasts final →
      laid'.1 = r.renamedInstances laid.1 ∧ r.Beside n outset laid.2 laid'.2 := by
  induction indices generalizing p q with
  | nil => exact fun _ => ⟨rfl, h⟩
  | cons index indices ih =>
    intro laid laid' lasts
    have body := layOutBody_grown layout (instanceScope scope (r.opening n ++ rest) index) fields
      subsections h.distinct
    have others := layOutInstances_grown layout scope (r.opening n ++ rest) caption fields subsections
      body.distinct indices
    obtain ⟨same, beside⟩ := layOutBody_beside moves fields
      (scopes.instanceScope moves.limit moves.after moves.last rest index) (below index) h
      (lasts.before others)
    obtain ⟨same', beside'⟩ := ih beside lasts
    have first : (layOutInstance layout' scope' (r.opening (n - 1) ++ rest) caption fields subsections q
        index).1 :: laid'.1.tail = r.renamedInstances laid.1 := by
      unfold layOutInstance
      dsimp only
      rw [same]
      exact congrArg _ same'
    exact ⟨first, beside'⟩

end

mutual

/-- A group inside is laid out as it was. -/
theorem layOut_beside (moves : r.Moves n layout layout' final outset) (kind : GroupKind)
    {scope scope' : Scope} (scopes : r.MovedScope n scope scope') :
    ∀ (b : Blueprint) {p q : Progress}, r.Beside n outset p q →
      (layOut layout kind scope p b).2.Lasts final →
      (layOut layout' kind scope' q b).1 = r.renamedGroup (layOut layout kind scope p b).1 ∧
        r.Beside n outset (layOut layout kind scope p b).2 (layOut layout' kind scope' q b).2
  | ⟨s, fields, subsections⟩, p, q, h, lasts => by
    obtain ⟨rest, named, named', beside⟩ := h.nameGroup scopes s
    have key : q.groupName (candidate scope' s) = r.renamed (p.groupName (candidate scope s)) := by
      rw [named, named', renamed_opening moves.limit moves.after moves.last]
    cases hs : s.repeats? with
    | none =>
      rw [layOut_of_plain layout kind scope p fields subsections hs] at lasts ⊢
      rw [layOut_of_plain layout' kind scope' q fields subsections hs]
      obtain ⟨same, beside'⟩ := layOutBody_beside moves fields scopes
        (layOutList_beside moves scopes subsections) beside lasts
      refine ⟨?_, beside'⟩
      dsimp only
      rw [same, nameGroup_eq, nameGroup_eq]
      dsimp only
      rw [key, renamedGroup, scopes.frames]
      rfl
    | some spec =>
      rw [layOut_of_settled layout kind scope p fields subsections hs] at lasts ⊢
      rw [layOut_of_settled layout' kind scope' q fields subsections hs]
      have grown := layOutInstances_grown layout scope (p.groupName (candidate scope s))
        (s.instanceLabel spec) fields subsections (distinct_settled layout kind scope s spec h.distinct)
        (List.range' 1 (settled layout kind scope s spec p).1)
      obtain ⟨count, beside⟩ := h.settled moves scopes kind s spec (lasts.before grown)
      have instances := layOutInstances_beside moves fields (s.instanceLabel spec) rest
        (fun index => layOutList_beside moves
          (scopes.instanceScope moves.limit moves.after moves.last rest index) subsections)
        scopes beside (List.range' 1 (settled layout kind scope s spec p).1)
      dsimp only at instances ⊢
      rw [← named, ← named'] at instances
      obtain ⟨same, beside'⟩ := instances lasts
      rw [count]
      refine ⟨?_, beside'⟩
      rw [same, key, renamedGroup, Option.map_some, scopes.frames]

theorem layOutList_beside (moves : r.Moves n layout layout' final outset)
    {scope scope' : Scope} (scopes : r.MovedScope n scope scope') :
    ∀ (l : List Blueprint) {p q : Progress}, r.Beside n outset p q →
      (layOutList layout scope p l).2.Lasts final →
      (layOutList layout' scope' q l).1 = r.renamedGroups (layOutList layout scope p l).1 ∧
        r.Beside n outset (layOutList layout scope p l).2 (layOutList layout' scope' q l).2
  | [], p, q, h, lasts => by
    rw [layOutList, layOutList]
    exact ⟨rfl, h⟩
  | b :: rest, p, q, h, lasts => by
    rw [layOutList_cons] at lasts
    have others := layOutList_grown layout scope rest
      (layOut_grown layout .subsection scope b h.distinct).distinct
    obtain ⟨first, beside⟩ := layOut_beside moves .subsection scopes b h (lasts.before others)
    obtain ⟨same, beside'⟩ := layOutList_beside moves scopes rest beside lasts
    rw [layOutList_cons, layOutList_cons, first, same]
    exact ⟨rfl, beside'⟩

end

theorem opening_instance {key : String} (stem : r.stem = key ++ "_") (scope : Scope) (n : Nat) :
    (Blueprint.instanceScope scope key n).opening = r.opening n := by
  rw [opening_instanceScope, Removal.opening, Frame.opening, stem]

theorem MovedScope.ofInstance {key : String} (stem : r.stem = key ++ "_")
    (around : scope.map r.renamedFrame = scope) :
    r.MovedScope n (Blueprint.instanceScope scope key n)
      (Blueprint.instanceScope scope key (n - 1)) := by
  refine ⟨⟨"", ?_, ?_⟩, ?_⟩
  · rw [opening_instance stem, String.append_empty]
  · rw [opening_instance stem, String.append_empty]
  · have frame : r.renamedFrame ⟨key ++ "_", n⟩ = ⟨key ++ "_", n - 1⟩ := if_pos stem.symm
    rw [Blueprint.instanceScope, Blueprint.instanceScope, List.map_append, around, List.map_cons, frame]
    rfl

/-- The later instance itself is laid out as it was, under its lower number. -/
theorem layOutInstance_beside (moves : r.Moves n layout layout' final outset) {key : String}
    (stem : r.stem = key ++ "_") (around : scope.map r.renamedFrame = scope)
    (caption : String) (fields : List Field) (subsections : List Blueprint)
    (h : r.Beside n outset p q)
    (lasts : (layOutInstance layout scope key caption fields subsections p n).2.Lasts final) :
    let laid := layOutInstance layout scope key caption fields subsections p n
    let laid' := layOutInstance layout' scope key caption fields subsections q (n - 1)
    laid'.1 = r.movedInstance laid.1 ∧ r.Beside n outset laid.2 laid'.2 := by
  have scopes : r.MovedScope n (instanceScope scope key n) (instanceScope scope key (n - 1)) :=
    .ofInstance stem around
  obtain ⟨same, beside⟩ := layOutBody_beside moves fields scopes
    (layOutList_beside moves scopes subsections) h lasts
  refine ⟨?_, beside⟩
  unfold layOutInstance
  dsimp only
  rw [same, movedInstance, Option.elim_some, Option.map_some, Option.map_some, Text.countedDown_append]

end Removal

end Formwork
