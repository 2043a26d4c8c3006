import Formwork.Proofs.Layout.Enclosed
import Formwork.Proofs.Visibility.Placements
import Mathlib.Data.List.Basic

/-!
# Ways from groups to fields

A way leads from a group into one of its instances, and on to a group that stands there, down to a field. The
ways of a tree are its placements, so that what is found on a walk through the tree can be told from them.
-/
namespace Formwork

/-- The groups lead to the field by way of `around`, the outermost first: each of these is in an instance of
the one before it, and the field is in an instance of the last. -/
inductive Group.Leads : List Group → List Group → PlacedField → Prop where
  /-- The field is in an instance of one of the groups. -/
  | own {groups : List Group} {g : Group} {i : GroupInstance} {f : PlacedField} :
      g ∈ groups → i ∈ g.instances → f ∈ i.fields → Leads groups [g] f
  /-- The field is below an instance of one of the groups. -/
  | deeper {groups around : List Group} {g : Group} {i : GroupInstance} {f : PlacedField} :
      g ∈ groups → i ∈ g.instances → Leads i.children around f → Leads groups (g :: around) f

namespace Group.Leads

variable {groups more around : List Group} {f : PlacedField}

theorem mono (h : Leads groups around f) (subset : groups ⊆ more) : Leads more around f := by
  cases h with
  | own hg hi hf => exact .own (subset hg) hi hf
  | deeper hg hi h => exact .deeper (subset hg) hi h

/-- The way begins at one of the groups. -/
theorem cons_iff {g : Group} :
    Leads (g :: groups) around f ↔ Leads [g] around f ∨ Leads groups around f := by
  constructor
  · rintro (⟨hg, hi, hf⟩ | ⟨hg, hi, h⟩) <;> rcases List.mem_cons.1 hg with rfl | hg
    · exact .inl (.own List.mem_cons_self hi hf)
    · exact .inr (.own hg hi hf)
    · exact .inl (.deeper List.mem_cons_self hi h)
    · exact .inr (.deeper hg hi h)
  · rintro (h | h)
    · exact h.mono (List.cons_subset_cons g (List.nil_subset _))
    · exact h.mono (List.subset_cons_self g groups)

/-- The groups on the way are groups of the tree. -/
theorem subset (h : Leads groups around f) : around ⊆ Group.listGroups groups := by
  induction h with
  | own hg _ _ =>
    intro k hk
    obtain rfl := List.mem_singleton.1 hk
    exact Group.withGroupsBelow_subset_of_mem hg (Group.mem_withGroupsBelow_self k)
  | @deeper groups around g i f hg hi _ ih =>
    intro k hk
    rcases List.mem_cons.1 hk with rfl | hk
    · exact Group.withGroupsBelow_subset_of_mem hg (Group.mem_withGroupsBelow_self k)
    · exact Group.withGroupsBelow_subset_of_mem hg (Group.listGroups_subset_withGroupsBelow hi (ih hk))

/-- The way ends in an instance that the field stands in. -/
theorem exists_own (h : Leads groups around f) :
    ∃ g ∈ Group.listGroups groups, ∃ i ∈ g.instances, f ∈ i.fields := by
  induction h with
  | @own groups g i f hg hi hf =>
    exact ⟨g, Group.withGroupsBelow_subset_of_mem hg g.mem_withGroupsBelow_self, i, hi, hf⟩
  | deeper hg hi _ ih =>
    obtain ⟨k, hk, own⟩ := ih
    exact ⟨k, Group.withGroupsBelow_subset_of_mem hg (Group.listGroups_subset_withGroupsBelow hi hk), own⟩

end Group.Leads

/-- The field of the placement is one of the instance, or is below it. -/
def Placement.Inside (around : List Group) (i : GroupInstance) (p : Placement) : Prop :=
  p.around = around ∧ p.field ∈ i.fields ∨
    ∃ inner, p.around = around ++ inner ∧ Group.Leads i.children inner p.field

def Placement.Below (around groups : List Group) (p : Placement) : Prop :=
  ∃ inner, p.around = around ++ inner ∧ Group.Leads groups inner p.field

section

variable {p : Placement}

theorem Placement.below_cons_iff {around groups : List Group} {g : Group} :
    p.Below around (g :: groups) ↔ p.Below around [g] ∨ p.Below around groups := by
  unfold Below
  rw [← exists_or]
  refine exists_congr fun inner => ?_
  rw [Group.Leads.cons_iff, and_or_left]

theorem Placement.below_singleton_iff {around : List Group} {g : Group} :
    p.Below around [g] ↔ ∃ i ∈ g.instances, p.Inside (around ++ [g]) i := by
  constructor
  · rintro ⟨inner, eq, ⟨hg, hi, hf⟩ | ⟨hg, hi, h⟩⟩ <;> obtain rfl := List.mem_singleton.1 hg
    · exact ⟨_, hi, .inl ⟨eq, hf⟩⟩
    · exact ⟨_, hi, .inr ⟨_, by rw [eq, List.append_assoc, List.singleton_append], h⟩⟩
  · rintro ⟨i, hi, ⟨eq, hf⟩ | ⟨inner, eq, h⟩⟩
    · exact ⟨[g], eq, .own List.mem_cons_self hi hf⟩
    · exact ⟨g :: inner, by rw [eq, List.append_assoc, List.singleton_append],
        .deeper List.mem_cons_self hi h⟩

mutual

theorem Group.mem_placements_iff (around : List Group) :
    ∀ g : Group, p ∈ g.placements around ↔ p.Below around [g]
  | ⟨key, title, kind, enabled, conditions, scope, repeatKey, instances⟩ => by
    rw [Group.placements, Placement.below_singleton_iff, GroupInstance.mem_listPlacements_iff]

theorem GroupInstance.mem_listPlacements_iff (around : List Group) :
    ∀ l : List GroupInstance,
      p ∈ GroupInstance.listPlacements around l ↔ ∃ i ∈ l, p.Inside around i
  | [] => by simp [GroupInstance.listPlacements]
  | ⟨index, label, own, children⟩ :: rest => by
    have here : p ∈ own.map (⟨around, ·⟩ : PlacedField → Placement) ↔
        p.around = around ∧ p.field ∈ own := by
      obtain ⟨around', f⟩ := p
      simp [eq_comm, and_comm]
    have inside : p.Inside around ⟨index, label, own, children⟩ ↔
        (p.around = around ∧ p.field ∈ own) ∨ p.Below around children := Iff.rfl
    rw [GroupInstance.listPlacements, List.mem_append, List.mem_append, here,
      Group.mem_listPlacements_iff around children, GroupInstance.mem_listPlacements_iff around rest,
      List.exists_mem_cons_iff, inside]

theorem Group.mem_listPlacements_iff (around : List Group) :
    ∀ l : List Group, p ∈ Group.listPlacements around l ↔ p.Below around l
  | [] => by
    constructor
    · exact fun h => absurd h List.not_mem_nil
    · rintro ⟨inner, -, ⟨hg, -, -⟩ | ⟨hg, -, -⟩⟩ <;> exact absurd hg List.not_mem_nil
  | g :: rest => by
    rw [Group.listPlacements, List.mem_append, Group.mem_placements_iff around g,
      Group.mem_listPlacements_iff around rest]
    exact Placement.below_cons_iff.symm

end

/-- The placements of a tree are the ways in which its groups lead to fields. -/
theorem FormTree.mem_placements_iff {t : FormTree} :
    p ∈ t.placements ↔ Group.Leads t.groups p.around p.field := by
  rw [FormTree.placements, Group.mem_listPlacements_iff]
  simp [Placement.Below]

/-- Every field of a tree stands in an instance of one of its groups. -/
theorem FormTree.exists_own {t : FormTree} {f : PlacedField} (hf : f ∈ t.fields) :
    ∃ g ∈ t.allGroups, ∃ i ∈ g.instances, f ∈ i.fields := by
  rw [← t.map_field_placements] at hf
  obtain ⟨p, hp, rfl⟩ := List.mem_map.1 hf
  exact (mem_placements_iff.1 hp).exists_own

def Placement.isIn (key : String) (p : Placement) : Bool := p.around.any (·.key = key)

theorem Placement.Inside.isIn {around : List Group} {i : GroupInstance} (h : p.Inside around i)
    {g : Group} (hg : g ∈ around) : p.isIn g.key = true := by
  have there : g ∈ p.around := by
    rcases h with ⟨eq, -⟩ | ⟨inner, eq, -⟩
    · rwa [eq]
    · rw [eq]
      exact List.mem_append_left inner hg
  exact List.any_eq_true.2 ⟨g, there, decide_eq_true rfl⟩

/-- A group that is around the field is one of those that everything is in, or one of those below them. -/
theorem Placement.Below.key_mem {around groups : List Group} {key : String} (h : p.Below around groups)
    (within : p.isIn key = true) :
    key ∈ around.map (·.key) ∨ key ∈ (Group.listGroups groups).map (·.key) := by
  obtain ⟨inner, eq, leads⟩ := h
  simp only [isIn, eq, List.any_append, Bool.or_eq_true, List.any_eq_true, decide_eq_true_eq] at within
  rcases within with ⟨g, hg, named⟩ | ⟨g, hg, named⟩
  · exact .inl (List.mem_map.2 ⟨g, hg, named⟩)
  · exact .inr (List.mem_map.2 ⟨g, leads.subset hg, named⟩)

theorem Placement.Inside.key_mem {around : List Group} {i : GroupInstance} {key : String}
    (h : p.Inside around i) (within : p.isIn key = true) :
    key ∈ around.map (·.key) ∨ key ∈ (Group.listGroups i.children).map (·.key) := by
  rcases h with ⟨eq, -⟩ | below
  · simp only [Placement.isIn, eq, List.any_eq_true, decide_eq_true_eq] at within
    exact .inl (List.mem_map.2 within)
  · exact Below.key_mem below within

end

end Formwork
