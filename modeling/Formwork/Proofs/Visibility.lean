import Formwork.Proofs.Removal
import Formwork.Proofs.Visibility.Ways
import Formwork.Table.Lemmas
import Mathlib.Data.List.Nodup

/-!
# What the plan of a tree says

The plan is worked out in one walk that hands down whether the groups so far allow what is below them. It is
compared with what it is meant to say: a field is to be in view if its conditions hold and every group on
the way to it allows it, and a group is to be in view if a field below it is. The ways to the fields are
described on their own, by steps from a group into one of its instances.
-/
namespace Formwork

section

variable (controls : ControlSet) {around : List Group}

/-- What is in view is in groups that all allow it. -/
theorem Placement.Inside.allowed {i : GroupInstance} {p : Placement} (h : p.Inside around i)
    (shown : p.isShown controls = true) : around.all (Group.allows controls) = true := by
  simp only [isShown, Bool.and_eq_true] at shown
  rcases h with ⟨eq, -⟩ | ⟨inner, eq, -⟩
  · rw [← eq]
    exact shown.1
  · rw [eq, List.all_append, Bool.and_eq_true] at shown
    exact shown.1.1

theorem and_any_isShown {allowed : Bool} {l : List Placement}
    (h : ∀ p ∈ l, p.isShown controls = true → allowed = true) :
    (allowed && l.any (·.isShown controls)) = l.any (·.isShown controls) := by
  cases shown : l.any (·.isShown controls) with
  | false => exact Bool.and_false _
  | true =>
    obtain ⟨p, hp, shown⟩ := List.any_eq_true.1 shown
    rw [h p hp shown]
    rfl

mutual

/-- A group is planned to be in view if a field below it is to be. -/
theorem Group.plan_shown (around : List Group) :
    ∀ g : Group, (g.plan controls (around.all (Group.allows controls))).2 =
      (g.placements around).any (·.isShown controls)
  | ⟨key, title, kind, enabled, conditions, scope, repeatKey, instances⟩ => by
    let g : Group := ⟨key, title, kind, enabled, conditions, scope, repeatKey, instances⟩
    have allowed := Group.all_allows_append controls around g
    have below := GroupInstance.listPlan_shown (around ++ [g]) instances
    simp only [Group.plan, Group.placements, g, ← allowed, below]
    refine and_any_isShown controls fun p hp shown => ?_
    obtain ⟨i, -, inside⟩ := (GroupInstance.mem_listPlacements_iff _ instances).1 hp
    exact inside.allowed controls shown

theorem GroupInstance.listPlan_shown (around : List Group) :
    ∀ l : List GroupInstance,
      (GroupInstance.listPlan controls (around.all (Group.allows controls)) l).2 =
        (GroupInstance.listPlacements around l).any (·.isShown controls)
  | [] => rfl
  | ⟨_, _, own, children⟩ :: rest => by
    have fields : (PlacedField.listPlan controls (around.all (Group.allows controls)) own).any (·.2) =
        (own.map (⟨around, ·⟩ : PlacedField → Placement)).any (·.isShown controls) := by
      rw [PlacedField.listPlan_eq, List.any_map]
      rfl
    simp only [GroupInstance.listPlan, GroupInstance.listPlacements, List.any_append, fields,
      Group.listPlan_shown around children, GroupInstance.listPlan_shown around rest]

theorem Group.listPlan_shown (around : List Group) :
    ∀ l : List Group, (Group.listPlan controls (around.all (Group.allows controls)) l).2 =
      (Group.listPlacements around l).any (·.isShown controls)
  | [] => rfl
  | g :: rest => by
    simp only [Group.listPlan, Group.listPlacements, List.any_append, Group.plan_shown around g,
      Group.listPlan_shown around rest]

end

/-- Whether one of the fields that is in the group under a key is to be in view. -/
def Placement.listShowIn (key : String) (l : List Placement) : Bool :=
  l.any fun p => p.isIn key && p.isShown controls

theorem Placement.listShowIn_append (key : String) (l l' : List Placement) :
    listShowIn controls key (l ++ l') = (listShowIn controls key l || listShowIn controls key l') :=
  List.any_append

/-- Nothing is in a group that is neither around the groups nor below them. -/
theorem Placement.listShowIn_of_not_mem {key : String} {l : List Placement}
    (h : ∀ p ∈ l, p.isIn key = false) : listShowIn controls key l = false := by
  rw [listShowIn, List.any_eq_false]
  intro p hp
  simp [h p hp]

/-- Where everything is in the group, it is enough that something is to be in view. -/
theorem Placement.listShowIn_of_forall {key : String} {l : List Placement}
    (h : ∀ p ∈ l, p.isIn key = true) : listShowIn controls key l = l.any (·.isShown controls) := by
  induction l with
  | nil => rfl
  | cons p l ih =>
    obtain ⟨first, h⟩ := List.forall_mem_cons.1 h
    have rest := ih h
    rw [listShowIn] at rest ⊢
    rw [List.any_cons, List.any_cons, first, Bool.true_and, rest]

theorem Group.listShowIn_listPlacements {key : String} {l : List Group}
    (apart : key ∉ around.map (·.key)) (absent : key ∉ (Group.listGroups l).map (·.key)) :
    Placement.listShowIn controls key (Group.listPlacements around l) = false := by
  refine Placement.listShowIn_of_not_mem controls fun p hp => ?_
  rw [Bool.eq_false_iff]
  intro within
  have below := (Group.mem_listPlacements_iff around l).1 hp
  exact (below.key_mem within).elim apart absent

theorem GroupInstance.listShowIn_listPlacements {key : String} {l : List GroupInstance}
    (apart : key ∉ around.map (·.key)) (absent : key ∉ (GroupInstance.listGroups l).map (·.key)) :
    Placement.listShowIn controls key (GroupInstance.listPlacements around l) = false := by
  refine Placement.listShowIn_of_not_mem controls fun p hp => ?_
  rw [Bool.eq_false_iff]
  intro within
  obtain ⟨i, hi, inside⟩ := (GroupInstance.mem_listPlacements_iff around l).1 hp
  rcases inside.key_mem within with outside | within
  · exact apart outside
  · exact absent (List.map_subset _ (GroupInstance.listGroups_subset_of_mem hi) within)

theorem PlacedField.listShowIn_placements {key : String} (own : List PlacedField)
    (apart : key ∉ around.map (·.key)) :
    Placement.listShowIn controls key (own.map (⟨around, ·⟩ : PlacedField → Placement)) = false := by
  refine Placement.listShowIn_of_not_mem controls fun p hp => ?_
  obtain ⟨f, -, rfl⟩ := List.mem_map.1 hp
  rw [Bool.eq_false_iff]
  intro within
  simp only [Placement.isIn, List.any_eq_true, decide_eq_true_eq] at within
  exact apart (List.mem_map.2 within)

mutual

/-- The entries of a plan tell which groups have a field in them that is to be in view. -/
theorem Group.plan_entries (around : List Group) :
    ∀ g : Group, (g.withGroupsBelow.map (·.key)).Nodup →
      (∀ k ∈ g.withGroupsBelow.map (·.key), k ∉ around.map (·.key)) →
        ∀ e ∈ (g.plan controls (around.all (Group.allows controls))).1.groups,
          e.2 = Placement.listShowIn controls e.1 (g.placements around)
  | ⟨key, title, kind, enabled, conditions, scope, repeatKey, instances⟩, distinct, apart, e, he => by
    let g : Group := ⟨key, title, kind, enabled, conditions, scope, repeatKey, instances⟩
    have allowed := Group.all_allows_append controls around g
    have shown := Group.plan_shown controls around g
    rw [Group.withGroupsBelow, List.map_cons, List.nodup_cons] at distinct
    rw [Group.withGroupsBelow, List.map_cons, List.forall_mem_cons] at apart
    simp only [Group.plan, List.mem_append, List.mem_singleton] at he
    rcases he with he | rfl
    · rw [← allowed] at he
      refine GroupInstance.listPlan_entries (around ++ [g]) instances distinct.2 (fun k hk => ?_) e he
      rw [List.map_append, List.mem_append, not_or]
      refine ⟨apart.2 k hk, fun same => distinct.1 ?_⟩
      obtain rfl := List.mem_singleton.1 same
      exact hk
    · have within : ∀ p ∈ g.placements around, p.isIn key = true := by
        intro p hp
        obtain ⟨i, -, inside⟩ := (GroupInstance.mem_listPlacements_iff (around ++ [g]) instances).1 hp
        exact inside.isIn (List.mem_append_right around List.mem_cons_self)
      exact shown.trans (Placement.listShowIn_of_forall controls within).symm

theorem GroupInstance.listPlan_entries (around : List Group) :
    ∀ l : List GroupInstance, ((GroupInstance.listGroups l).map (·.key)).Nodup →
      (∀ k ∈ (GroupInstance.listGroups l).map (·.key), k ∉ around.map (·.key)) →
        ∀ e ∈ (GroupInstance.listPlan controls (around.all (Group.allows controls)) l).1.groups,
          e.2 = Placement.listShowIn controls e.1 (GroupInstance.listPlacements around l)
  | [], _, _, e, he => absurd he List.not_mem_nil
  | ⟨_, _, own, children⟩ :: rest, distinct, apart, e, he => by
    rw [GroupInstance.listGroups, List.map_append] at distinct apart
    obtain ⟨first, others, between⟩ := List.nodup_append.1 distinct
    obtain ⟨apart, apart'⟩ := List.forall_mem_append.1 apart
    rw [GroupInstance.listPlacements, Placement.listShowIn_append, Placement.listShowIn_append]
    simp only [GroupInstance.listPlan, VisibilityPlan.append, List.nil_append] at he
    rcases List.mem_append.1 he with he | he
    · have name := (Group.listPlan_groups_perm controls _ children).subset (List.mem_map_of_mem he)
      rw [← Group.listPlan_entries around children first apart e he,
        PlacedField.listShowIn_placements controls own (apart _ name),
        GroupInstance.listShowIn_listPlacements controls (apart _ name)
          fun there => between _ name _ there rfl,
        Bool.false_or, Bool.or_false]
    · have name := (GroupInstance.listPlan_groups_perm controls _ rest).subset (List.mem_map_of_mem he)
      rw [← GroupInstance.listPlan_entries around rest others apart' e he,
        PlacedField.listShowIn_placements controls own (apart' _ name),
        Group.listShowIn_listPlacements controls (apart' _ name) fun there => between _ there _ name rfl,
        Bool.false_or, Bool.false_or]

theorem Group.listPlan_entries (around : List Group) :
    ∀ l : List Group, ((Group.listGroups l).map (·.key)).Nodup →
      (∀ k ∈ (Group.listGroups l).map (·.key), k ∉ around.map (·.key)) →
        ∀ e ∈ (Group.listPlan controls (around.all (Group.allows controls)) l).1.groups,
          e.2 = Placement.listShowIn controls e.1 (Group.listPlacements around l)
  | [], _, _, e, he => absurd he List.not_mem_nil
  | g :: rest, distinct, apart, e, he => by
    rw [Group.listGroups, List.map_append] at distinct apart
    obtain ⟨first, others, between⟩ := List.nodup_append.1 distinct
    obtain ⟨apart, apart'⟩ := List.forall_mem_append.1 apart
    rw [Group.listPlacements, Placement.listShowIn_append]
    simp only [Group.listPlan, VisibilityPlan.append] at he
    rcases List.mem_append.1 he with he | he
    · have name := (Group.plan_groups_perm controls _ g).subset (List.mem_map_of_mem he)
      have absent : Placement.listShowIn controls e.1 (Group.listPlacements around rest) = false :=
        Group.listShowIn_listPlacements controls (apart _ name) fun there => between _ name _ there rfl
      rw [← Group.plan_entries around g first apart e he, absent, Bool.or_false]
    · have name := (Group.listPlan_groups_perm controls _ rest).subset (List.mem_map_of_mem he)
      have absent : Placement.listShowIn controls e.1 (g.placements around) = false := by
        have alone (absent : e.1 ∉ (Group.listGroups [g]).map (·.key)) :
            Placement.listShowIn controls e.1 (Group.listPlacements around [g]) = false :=
          Group.listShowIn_listPlacements controls (apart' _ name) absent
        simp only [Group.listPlacements, Group.listGroups, List.append_nil] at alone
        exact alone fun there => between _ there _ name rfl
      rw [← Group.listPlan_entries around rest others apart' e he, absent, Bool.false_or]

end

/-- A plan says of each field in document order whether its conditions and those of all groups on the way to it
hold, and of each group whether a field below it, through whatever instances and groups, is to be in view. -/
theorem FormTree.plan_shows {t : FormTree} (distinct : (t.allGroups.map (·.key)).Nodup) :
    (t.placements.map (·.field) = t.fields ∧
        ∀ p : Placement, p ∈ t.placements ↔ Group.Leads t.groups p.around p.field) ∧
      ((t.plan controls).fields = t.placements.map (fun p => (p.field.controlId, p.isShown controls)) ∧
        ∀ p : Placement, p.isShown controls = true ↔
          Condition.allHold controls p.field.scope p.field.conditions = true ∧
            ∀ g ∈ p.around, g.templateEnabled = true ∧
              Condition.allHold controls g.scope g.conditions = true) ∧
      (t.plan controls).groupTable.names.Perm (t.allGroups.map (·.key)) ∧
        ∀ g ∈ t.allGroups, ∃ shown, Table.get? g.key (t.plan controls).groupTable = some shown ∧
          (shown = true ↔ ∃ p ∈ t.placements, g ∈ p.around ∧ p.isShown controls = true) := by
  have perm := t.map_fst_plan_groups_perm controls
  have once : (Table.names (t.plan controls).groups).Nodup := perm.nodup_iff.2 distinct
  refine ⟨⟨t.map_field_placements, fun p => mem_placements_iff⟩, ⟨t.plan_fields controls, fun p => ?_⟩,
    (Table.names_ofPairs_perm once).trans perm, fun g hg => ?_⟩
  · simp only [Placement.isShown, Group.allows, Bool.and_eq_true, List.all_eq_true]
    exact and_comm
  · obtain ⟨e, he, named⟩ := List.mem_map.1 (perm.symm.subset (List.mem_map_of_mem hg))
    have found : Table.get? g.key (t.plan controls).groupTable = some e.2 := by
      rw [VisibilityPlan.groupTable, Table.get?_ofPairs once, ← named]
      exact Table.get?_of_mem once he
    have told := Group.listPlan_entries controls [] t.groups distinct (fun _ _ => List.not_mem_nil) e he
    refine ⟨e.2, found, ?_⟩
    rw [told, named, Placement.listShowIn, List.any_eq_true]
    refine exists_congr fun p => and_congr_right fun hp => ?_
    rw [Bool.and_eq_true, Placement.isIn, List.any_eq_true]
    refine and_congr_left fun _ => ⟨?_, fun around => ⟨g, around, decide_eq_true rfl⟩⟩
    rintro ⟨k, hk, same⟩
    have there : k ∈ t.allGroups := (mem_placements_iff.1 hp).subset hk
    exact List.inj_on_of_nodup_map distinct there hg (of_decide_eq_true same) ▸ hk

end

/-- A visit with guests to be named, each with a dish, once there is a reason for it. -/
def Session.visit : Session :=
  .start "" {} ⟨none, [sectionOf "Visit" none ["reason"]
    [{ sectionOf "Guests" (some 2) ["name"] [sectionOf "Dishes" (some 1) ["dish"] []] with
      conditions := [⟨some "reason", .hasValue, .null, .and⟩] }]], [], []⟩

/-- Without a reason the dishes are hidden along with the guests, although they have no conditions. -/
theorem Session.plan_shows_visit :
    (visit.tree.allGroups.map (·.key)).Nodup ∧
      (visit.tree.plan visit.controls).fields = [("reason", true), ("guests_1_name", false),
        ("guests_1_dishes_1_dish", false), ("guests_2_name", false), ("guests_2_dishes_1_dish", false)] ∧
      Table.get? "visit" (visit.tree.plan visit.controls).groupTable = some true ∧
      ∃ g ∈ visit.tree.allGroups, g.key = "guests_1_dishes" ∧ g.conditions = [] ∧
        ∀ p ∈ visit.tree.placements, g ∈ p.around → p.isShown visit.controls = false := by
  have distinct : (visit.tree.allGroups.map (·.key)).Nodup := by decide +kernel
  refine ⟨distinct, by decide +kernel, by decide +kernel, ?_⟩
  obtain ⟨g, hg, named, free⟩ : ∃ g ∈ visit.tree.allGroups, g.key = "guests_1_dishes" ∧
      g.conditions = [] := by
    decide +kernel
  obtain ⟨-, -, -, shows⟩ := FormTree.plan_shows visit.controls distinct
  obtain ⟨shown, found, below⟩ := shows g hg
  have hidden : Table.get? "guests_1_dishes" (visit.tree.plan visit.controls).groupTable = some false := by
    decide +kernel
  rw [named, hidden] at found
  refine ⟨g, hg, named, free, fun p hp around => ?_⟩
  rw [Bool.eq_false_iff]
  intro inView
  exact absurd (below.2 ⟨p, hp, around, inView⟩) (by simp [← Option.some.inj found])

end Formwork
