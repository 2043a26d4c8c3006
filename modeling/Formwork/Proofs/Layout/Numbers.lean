import Formwork.Tree.Build

/-!
# Sections by number

The sections that a step shows are laid out in declared order. Each section has its place in the template
as a number, which tells what is laid out for it in one step from what is laid out for it in another. The
declared order of the sections that are shown is that of all sections, with the others left out.
-/
namespace Formwork

theorem mayPrecede_trans {a b c : Option Binary64} (h : mayPrecede a b = true)
    (h' : mayPrecede b c = true) : mayPrecede a c = true := by
  cases a with
  | none =>
    cases b with
    | none => exact h'
    | some b => cases h
  | some a =>
    cases c with
    | none => rfl
    | some c =>
      cases b with
      | none => cases h'
      | some b =>
        simp only [mayPrecede, decide_eq_true_eq] at h h' ⊢
        omega

theorem mayPrecede_of_not {a b : Option Binary64} (h : ¬mayPrecede a b = true) :
    mayPrecede b a = true := by
  cases a with
  | none => rfl
  | some a =>
    cases b with
    | none => exact absurd rfl h
    | some b =>
      simp only [mayPrecede, decide_eq_true_eq] at h ⊢
      omega

section

variable {α β : Type} (order : α → Option Binary64)

def Arranged (items : List α) : Prop := items.Pairwise fun a b => mayPrecede (order a) (order b) = true

theorem arranged_insertInOrder (item : α) {items : List α} (h : Arranged order items) :
    Arranged order (insertInOrder order item items) := by
  induction items with
  | nil => exact List.pairwise_singleton ..
  | cons next rest ih =>
    obtain ⟨first, later⟩ := List.pairwise_cons.1 h
    unfold insertInOrder
    split
    · rename_i before
      refine List.pairwise_cons.2 ⟨fun other mem => ?_, h⟩
      rcases List.mem_cons.1 mem with rfl | mem
      · exact before
      · exact mayPrecede_trans before (first other mem)
    · rename_i after
      refine List.pairwise_cons.2 ⟨fun other mem => ?_, ih later⟩
      rcases List.mem_cons.1 ((insertInOrder_perm order item rest).mem_iff.1 mem) with rfl | mem
      · exact mayPrecede_of_not after
      · exact first other mem

theorem arranged_inDeclaredOrder (items : List α) : Arranged order (inDeclaredOrder order items) := by
  induction items with
  | nil => exact .nil
  | cons item items ih => exact arranged_insertInOrder order item ih

/-- An item that may precede all others comes first. -/
theorem insertInOrder_of_forall {item : α} {items : List α}
    (h : ∀ other ∈ items, mayPrecede (order item) (order other) = true) :
    insertInOrder order item items = item :: items := by
  cases items with
  | nil => rfl
  | cons next rest => rw [insertInOrder, if_pos (h next List.mem_cons_self)]

theorem filter_insertInOrder (p : α → Bool) (item : α) {items : List α} (h : Arranged order items) :
    (insertInOrder order item items).filter p =
      if p item then insertInOrder order item (items.filter p) else items.filter p := by
  induction items with
  | nil => cases hp : p item <;> simp [insertInOrder, hp]
  | cons next rest ih =>
    obtain ⟨first, later⟩ := List.pairwise_cons.1 h
    rw [insertInOrder]
    split
    · rename_i before
      have all : ∀ other ∈ (next :: rest).filter p, mayPrecede (order item) (order other) = true := by
        intro other mem
        rcases List.mem_cons.1 (List.mem_filter.1 mem).1 with rfl | mem
        · exact before
        · exact mayPrecede_trans before (first other mem)
      rw [insertInOrder_of_forall order all, List.filter_cons]
    · rename_i after
      rw [List.filter_cons, ih later]
      cases hp : p item <;> cases hn : p next <;> simp [hn, insertInOrder, after]

/-- Leaving items out does not change the order of the others. -/
theorem filter_inDeclaredOrder (p : α → Bool) (items : List α) :
    (inDeclaredOrder order items).filter p = inDeclaredOrder order (items.filter p) := by
  induction items with
  | nil => rfl
  | cons item items ih =>
    have step : inDeclaredOrder order (item :: items) =
        insertInOrder order item (inDeclaredOrder order items) := rfl
    rw [step, filter_insertInOrder order p item (arranged_inDeclaredOrder order items), ih]
    cases hp : p item with
    | false => simp [hp]
    | true =>
      rw [List.filter_cons_of_pos hp]
      rfl

variable {order} in
/-- The order is declared by the items alone. -/
theorem map_inDeclaredOrder {order' : β → Option Binary64} {f : α → β}
    (h : ∀ a, order' (f a) = order a) (items : List α) :
    (inDeclaredOrder order items).map f = inDeclaredOrder order' (items.map f) := by
  have insert (item : α) (items : List α) :
      (insertInOrder order item items).map f = insertInOrder order' (f item) (items.map f) := by
    induction items with
    | nil => rfl
    | cons next rest ih =>
      simp only [insertInOrder, List.map_cons, h]
      split
      · rfl
      · rw [List.map_cons, ih]
  induction items with
  | nil => rfl
  | cons item items ih => exact (insert item _).trans (congrArg _ ih)

end

namespace Template

/-- The sections that are shown in a step, with their numbers, in the order in which they are laid out. -/
def shown (active : Option String) (t : Template) : List (Section × Nat) :=
  inDeclaredOrder (fun e => e.1.order) (t.sections.zipIdx.filter fun e => e.1.shownIn active)

theorem shown_eq_filter (active : Option String) (t : Template) :
    t.shown active = (t.shown none).filter fun e => e.1.shownIn active := by
  have all : t.sections.zipIdx.filter (fun e => e.1.shownIn none) = t.sections.zipIdx :=
    List.filter_eq_self.2 fun _ _ => rfl
  rw [shown, shown, all, filter_inDeclaredOrder]

theorem ofSections_eq_map (sections : List Section) :
    Blueprint.ofSections sections = sections.map Blueprint.ofSection := by
  induction sections with
  | nil => rfl
  | cons s sections ih => rw [Blueprint.ofSections, ih, List.map_cons]

theorem order_ofSection (s : Section) : (Blueprint.ofSection s).order = s.order := by
  cases s
  rw [Blueprint.ofSection, Blueprint.order]

theorem blueprints_eq (active : Option String) (t : Template) :
    t.blueprints active = (t.shown active).map fun e => Blueprint.ofSection e.1 := by
  have named : (t.sections.zipIdx.filter fun e => e.1.shownIn active).map (·.1) =
      t.sections.filter (·.shownIn active) := by
    have along := List.filter_map (f := fun e : Section × Nat => e.1) (p := (·.shownIn active))
      (l := t.sections.zipIdx)
    rw [List.zipIdx_map_fst] at along
    exact along.symm
  rw [blueprints, ofSections_eq_map, ← named, List.map_map, shown]
  exact (map_inDeclaredOrder (fun e : Section × Nat => order_ofSection e.1) _).symm

/-- No number occurs twice. -/
theorem nodup_numbers (active : Option String) (t : Template) : ((t.shown active).map (·.2)).Nodup := by
  have perm := (inDeclaredOrder_perm (fun e : Section × Nat => e.1.order)
    (t.sections.zipIdx.filter fun e => e.1.shownIn active)).map (·.2)
  rw [shown, perm.nodup_iff]
  refine List.Nodup.sublist (List.filter_sublist.map _) ?_
  rw [List.zipIdx_map_snd]
  exact List.nodup_range'

end Template

end Formwork
