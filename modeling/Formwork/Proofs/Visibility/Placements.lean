import Formwork.Visibility

/-!
# Fields and the groups around them

The plan of a tree is worked out on the way down, group by group. Here it is said for each field on its
own: a field is to be in view if its conditions hold and every group around it allows it.
-/
namespace Formwork

/-- A field of a tree with the groups around it, the outermost first. -/
structure Placement where
  around : List Group
  field : PlacedField

mutual

/-- The fields of a group in document order, if `around` are the groups around it. -/
def Group.placements (around : List Group) : Group → List Placement
  | ⟨key, title, kind, enabled, conditions, scope, repeatKey, instances⟩ =>
    GroupInstance.listPlacements
      (around ++ [⟨key, title, kind, enabled, conditions, scope, repeatKey, instances⟩]) instances

def GroupInstance.listPlacements (around : List Group) : List GroupInstance → List Placement
  | [] => []
  | ⟨_, _, own, children⟩ :: rest =>
    own.map (⟨around, ·⟩) ++ Group.listPlacements around children ++
      GroupInstance.listPlacements around rest

def Group.listPlacements (around : List Group) : List Group → List Placement
  | [] => []
  | g :: rest => Group.placements around g ++ Group.listPlacements around rest

end

def FormTree.placements (t : FormTree) : List Placement := Group.listPlacements [] t.groups

/-- Whether the group lets anything below it come into view: the template does not disable it, and its
conditions hold. -/
def Group.allows (controls : ControlSet) (g : Group) : Bool :=
  g.templateEnabled && Condition.allHold controls g.scope g.conditions

/-- What a group hands down: whether the groups around it allow it, and it allows what is below it. -/
theorem Group.all_allows_append (controls : ControlSet) (around : List Group) (g : Group) :
    (around ++ [g]).all (Group.allows controls) =
      (around.all (Group.allows controls) && g.templateEnabled &&
        Condition.allHold controls g.scope g.conditions) := by
  rw [List.all_append, List.all_cons, List.all_nil, Bool.and_true, allows, Bool.and_assoc]

/-- Whether the field is to be in view. -/
def Placement.isShown (controls : ControlSet) (p : Placement) : Bool :=
  p.around.all (Group.allows controls) &&
    Condition.allHold controls p.field.scope p.field.conditions

def Placement.entry (controls : ControlSet) (p : Placement) : String × Bool :=
  (p.field.controlId, p.isShown controls)

mutual

theorem Group.map_field_placements (around : List Group) :
    ∀ g : Group, (g.placements around).map (·.field) = g.fields
  | ⟨key, title, kind, enabled, conditions, scope, repeatKey, instances⟩ => by
    rw [Group.placements, Group.fields, GroupInstance.map_field_listPlacements]

theorem GroupInstance.map_field_listPlacements (around : List Group) :
    ∀ l : List GroupInstance,
      (GroupInstance.listPlacements around l).map (·.field) = GroupInstance.listFields l
  | [] => rfl
  | ⟨_, _, own, children⟩ :: rest => by
    have fields : (own.map fun f => (⟨around, f⟩ : Placement)).map (·.field) = own := by
      rw [List.map_map]
      exact List.map_id own
    rw [GroupInstance.listPlacements, GroupInstance.listFields, List.map_append, List.map_append,
      fields, Group.map_field_listPlacements, GroupInstance.map_field_listPlacements]

theorem Group.map_field_listPlacements (around : List Group) :
    ∀ l : List Group, (Group.listPlacements around l).map (·.field) = Group.listFields l
  | [] => rfl
  | g :: rest => by
    rw [Group.listPlacements, Group.listFields, List.map_append, Group.map_field_placements,
      Group.map_field_listPlacements]

end

theorem FormTree.map_field_placements (t : FormTree) : t.placements.map (·.field) = t.fields :=
  Group.map_field_listPlacements [] t.groups

theorem FormTree.field_mem_of_mem_placements {t : FormTree} {p : Placement} (h : p ∈ t.placements) :
    p.field ∈ t.fields := by
  rw [← FormTree.map_field_placements]
  exact List.mem_map_of_mem h

section

variable (controls : ControlSet)

/-- Fields that the same groups are around. -/
theorem PlacedField.listPlan_eq (around : List Group) (own : List PlacedField) :
    listPlan controls (around.all (Group.allows controls)) own =
      (own.map (⟨around, ·⟩ : PlacedField → Placement)).map (Placement.entry controls) := by
  rw [listPlan, List.map_map]
  rfl

mutual

theorem Group.plan_fields (around : List Group) :
    ∀ g : Group, (g.plan controls (around.all (Group.allows controls))).1.fields =
      (g.placements around).map (Placement.entry controls)
  | ⟨key, title, kind, enabled, conditions, scope, repeatKey, instances⟩ => by
    have allowed := Group.all_allows_append controls around
      ⟨key, title, kind, enabled, conditions, scope, repeatKey, instances⟩
    simp only [Group.plan, Group.placements, ← allowed]
    exact GroupInstance.listPlan_fields _ instances

theorem GroupInstance.listPlan_fields (around : List Group) :
    ∀ l : List GroupInstance,
      (GroupInstance.listPlan controls (around.all (Group.allows controls)) l).1.fields =
        (GroupInstance.listPlacements around l).map (Placement.entry controls)
  | [] => rfl
  | ⟨_, _, own, children⟩ :: rest => by
    simp only [GroupInstance.listPlan, VisibilityPlan.append, GroupInstance.listPlacements,
      List.map_append, PlacedField.listPlan_eq, Group.listPlan_fields around children,
      GroupInstance.listPlan_fields around rest]

theorem Group.listPlan_fields (around : List Group) :
    ∀ l : List Group,
      (Group.listPlan controls (around.all (Group.allows controls)) l).1.fields =
        (Group.listPlacements around l).map (Placement.entry controls)
  | [] => rfl
  | g :: rest => by
    simp only [Group.listPlan, VisibilityPlan.append, Group.listPlacements, List.map_append,
      Group.plan_fields around g, Group.listPlan_fields around rest]

end

/-- The plan of a tree, field by field. -/
theorem FormTree.plan_fields (t : FormTree) :
    (t.plan controls).fields = t.placements.map (Placement.entry controls) :=
  Group.listPlan_fields controls [] t.groups

/-- A plan names the controls of the tree in document order. -/
theorem FormTree.map_fst_plan_fields (t : FormTree) :
    (t.plan controls).fields.map (·.1) = t.fields.map (·.controlId) := by
  rw [FormTree.plan_fields, ← FormTree.map_field_placements, List.map_map, List.map_map]
  rfl

mutual

/-- A plan names each group once, after the groups below it. -/
theorem Group.plan_groups_perm (allowed : Bool) :
    ∀ g : Group, ((g.plan controls allowed).1.groups.map (·.1)).Perm (g.withGroupsBelow.map (·.key))
  | ⟨key, title, kind, enabled, conditions, scope, repeatKey, instances⟩ => by
    have below := GroupInstance.listPlan_groups_perm
      (allowed && enabled && Condition.allHold controls scope conditions) instances
    simp only [Group.plan, Group.withGroupsBelow, List.map_append, List.map_cons, List.map_nil]
    exact (List.perm_append_singleton key _).trans (below.cons key)

theorem GroupInstance.listPlan_groups_perm (allowed : Bool) :
    ∀ l : List GroupInstance, ((GroupInstance.listPlan controls allowed l).1.groups.map (·.1)).Perm
      ((GroupInstance.listGroups l).map (·.key))
  | [] => .refl _
  | ⟨_, _, own, children⟩ :: rest => by
    have first := Group.listPlan_groups_perm allowed children
    have others := GroupInstance.listPlan_groups_perm allowed rest
    simp only [GroupInstance.listPlan, VisibilityPlan.append, GroupInstance.listGroups, List.map_append,
      List.nil_append]
    exact first.append others

theorem Group.listPlan_groups_perm (allowed : Bool) :
    ∀ l : List Group, ((Group.listPlan controls allowed l).1.groups.map (·.1)).Perm
      ((Group.listGroups l).map (·.key))
  | [] => .refl _
  | g :: rest => by
    have first := Group.plan_groups_perm allowed g
    have others := Group.listPlan_groups_perm allowed rest
    simp only [Group.listPlan, VisibilityPlan.append, Group.listGroups, List.map_append]
    exact first.append others

end

/-- A plan names the groups of the tree. -/
theorem FormTree.map_fst_plan_groups_perm (t : FormTree) :
    ((t.plan controls).groups.map (·.1)).Perm (t.allGroups.map (·.key)) :=
  Group.listPlan_groups_perm controls true t.groups

end

end Formwork
