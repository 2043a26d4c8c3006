import Formwork.Repeat.Slot
import Formwork.Tree.Basic

/-!
# Trees after a removal

What a tree is to look like when an instance of a repeated group is removed: the instance is gone, every
later one has moved down by one, and all that is outside of the group stays as it is.
-/
namespace Formwork

def Text.countedDown (n : Nat) (s : String) : String :=
  String.ofList (s.toList.take (s.toList.length - (numeral n).length)) ++ ofNat (n - 1)

theorem Text.countedDown_append (s : String) (n : Nat) :
    countedDown n (s ++ ofNat n) = s ++ ofNat (n - 1) := by
  simp [countedDown, ofNat, String.toList_append]

namespace Removal

variable (r : Removal)

def renamed (name : String) : String := (r.rename? name).getD name

/-- The frame after the removal: an instance of the group has a lower number, one of a group inside it
another stem. -/
def renamedFrame (f : Frame) : Frame :=
  if f.stem = r.stem then { f with index := f.index - 1 } else { f with stem := r.renamed f.stem }

def renamedField (p : PlacedField) : PlacedField :=
  { p with controlId := r.renamed p.controlId, scope := p.scope.map r.renamedFrame }

mutual

def renamedGroup : Group → Group
  | ⟨key, title, kind, enabled, conditions, scope, repeatKey, instances⟩ =>
    ⟨r.renamed key, title, kind, enabled, conditions, scope.map r.renamedFrame,
      repeatKey.map r.renamed, renamedInstances instances⟩

def renamedInstances : List GroupInstance → List GroupInstance
  | [] => []
  | ⟨index, label, own, children⟩ :: rest =>
    ⟨index, label, own.map r.renamedField, renamedGroups children⟩ :: renamedInstances rest

def renamedGroups : List Group → List Group
  | [] => []
  | g :: rest => renamedGroup g :: renamedGroups rest

end

/-- A later instance of the group itself. -/
def movedInstance : GroupInstance → GroupInstance
  | ⟨index, label, own, children⟩ =>
    ⟨index.map (· - 1), index.elim label fun n => label.map (Text.countedDown n),
      own.map r.renamedField, r.renamedGroups children⟩

/-- The instances of the group that are left. -/
def remaining (instances : List GroupInstance) : List GroupInstance :=
  instances.take (r.index - 1) ++ (instances.drop r.index).map r.movedInstance

theorem remaining_append (before : List GroupInstance) (removed : GroupInstance)
    (after : List GroupInstance) (h : before.length + 1 = r.index) :
    r.remaining (before ++ removed :: after) = before ++ after.map r.movedInstance := by
  have first : r.index - 1 = before.length := by omega
  rw [remaining, first, List.take_left', ← h, List.drop_append, List.drop_of_length_le (Nat.le_succ _)]
  · simp
  · rfl

end Removal

section

variable (key : String)

mutual

/-- The group after the removal of an instance of the one registered under `key`. -/
def Group.without (r : Removal) : Group → Group
  | ⟨own, title, kind, enabled, conditions, scope, repeatKey, instances⟩ =>
    ⟨own, title, kind, enabled, conditions, scope, repeatKey,
      if repeatKey = some key then r.remaining instances
      else GroupInstance.listWithout r instances⟩

def GroupInstance.listWithout (r : Removal) : List GroupInstance → List GroupInstance
  | [] => []
  | ⟨index, label, own, children⟩ :: rest =>
    ⟨index, label, own, Group.listWithout r children⟩ :: GroupInstance.listWithout r rest

def Group.listWithout (r : Removal) : List Group → List Group
  | [] => []
  | g :: rest => Group.without r g :: Group.listWithout r rest

end

/-- The tree after the removal of an instance of the group registered under `key`. -/
def FormTree.without (r : Removal) (t : FormTree) : FormTree := ⟨Group.listWithout key r t.groups⟩

mutual

/-- The fields of a group, apart from those of the group registered under `key`. -/
def Group.fieldsOutside : Group → List PlacedField
  | ⟨_, _, _, _, _, _, repeatKey, instances⟩ =>
    if repeatKey = some key then [] else GroupInstance.listFieldsOutside instances

def GroupInstance.listFieldsOutside : List GroupInstance → List PlacedField
  | [] => []
  | ⟨_, _, own, children⟩ :: rest =>
    own ++ Group.listFieldsOutside children ++ GroupInstance.listFieldsOutside rest

def Group.listFieldsOutside : List Group → List PlacedField
  | [] => []
  | g :: rest => Group.fieldsOutside g ++ Group.listFieldsOutside rest

end

mutual

def Group.groupsOutside : Group → List Group
  | ⟨own, title, kind, enabled, conditions, scope, repeatKey, instances⟩ =>
    if repeatKey = some key then []
    else ⟨own, title, kind, enabled, conditions, scope, repeatKey, instances⟩ ::
      GroupInstance.listGroupsOutside instances

def GroupInstance.listGroupsOutside : List GroupInstance → List Group
  | [] => []
  | ⟨_, _, _, children⟩ :: rest =>
    Group.listGroupsOutside children ++ GroupInstance.listGroupsOutside rest

def Group.listGroupsOutside : List Group → List Group
  | [] => []
  | g :: rest => Group.groupsOutside g ++ Group.listGroupsOutside rest

end

def FormTree.fieldsOutside (t : FormTree) : List PlacedField := Group.listFieldsOutside key t.groups

def FormTree.groupsOutside (t : FormTree) : List Group := Group.listGroupsOutside key t.groups

mutual

theorem Group.fieldsOutside_subset : ∀ g : Group, Group.fieldsOutside key g ⊆ g.fields
  | ⟨_, _, _, _, _, _, repeatKey, instances⟩, f, hf => by
    rw [Group.fieldsOutside] at hf
    rw [Group.fields]
    split at hf
    · exact absurd hf List.not_mem_nil
    · exact GroupInstance.listFieldsOutside_subset instances hf

theorem GroupInstance.listFieldsOutside_subset :
    ∀ l : List GroupInstance, GroupInstance.listFieldsOutside key l ⊆ GroupInstance.listFields l
  | [], _, hf => hf
  | ⟨_, _, own, children⟩ :: rest, f, hf => by
    rw [GroupInstance.listFieldsOutside] at hf
    rw [GroupInstance.listFields]
    rcases List.mem_append.1 hf with hf | hf
    · rcases List.mem_append.1 hf with hf | hf
      · exact List.mem_append_left _ (List.mem_append_left _ hf)
      · exact List.mem_append_left _
          (List.mem_append_right _ (Group.listFieldsOutside_subset children hf))
    · exact List.mem_append_right _ (GroupInstance.listFieldsOutside_subset rest hf)

theorem Group.listFieldsOutside_subset :
    ∀ l : List Group, Group.listFieldsOutside key l ⊆ Group.listFields l
  | [], _, hf => hf
  | g :: rest, f, hf => by
    rw [Group.listFieldsOutside] at hf
    rw [Group.listFields]
    rcases List.mem_append.1 hf with hf | hf
    · exact List.mem_append_left _ (Group.fieldsOutside_subset g hf)
    · exact List.mem_append_right _ (Group.listFieldsOutside_subset rest hf)

end

mutual

theorem Group.groupsOutside_subset : ∀ g : Group, Group.groupsOutside key g ⊆ g.withGroupsBelow
  | ⟨_, _, _, _, _, _, repeatKey, instances⟩, h, hh => by
    rw [Group.groupsOutside] at hh
    rw [Group.withGroupsBelow]
    split at hh
    · exact absurd hh List.not_mem_nil
    · rcases List.mem_cons.1 hh with rfl | hh
      · exact List.mem_cons_self
      · exact List.mem_cons_of_mem _ (GroupInstance.listGroupsOutside_subset instances hh)

theorem GroupInstance.listGroupsOutside_subset :
    ∀ l : List GroupInstance, GroupInstance.listGroupsOutside key l ⊆ GroupInstance.listGroups l
  | [], _, hh => hh
  | ⟨_, _, _, children⟩ :: rest, h, hh => by
    rw [GroupInstance.listGroupsOutside] at hh
    rw [GroupInstance.listGroups]
    rcases List.mem_append.1 hh with hh | hh
    · exact List.mem_append_left _ (Group.listGroupsOutside_subset children hh)
    · exact List.mem_append_right _ (GroupInstance.listGroupsOutside_subset rest hh)

theorem Group.listGroupsOutside_subset :
    ∀ l : List Group, Group.listGroupsOutside key l ⊆ Group.listGroups l
  | [], _, hh => hh
  | g :: rest, h, hh => by
    rw [Group.listGroupsOutside] at hh
    rw [Group.listGroups]
    rcases List.mem_append.1 hh with hh | hh
    · exact List.mem_append_left _ (Group.groupsOutside_subset g hh)
    · exact List.mem_append_right _ (Group.listGroupsOutside_subset rest hh)

end

theorem Group.mem_groupsOutside_self :
    ∀ {g : Group}, g.repeatKey ≠ some key → g ∈ Group.groupsOutside key g
  | ⟨_, _, _, _, _, _, _, _⟩, other => by
    rw [Group.groupsOutside, if_neg other]
    exact List.mem_cons_self

mutual

theorem Group.repeatKey_ne_of_outside :
    ∀ g : Group, ∀ h ∈ Group.groupsOutside key g, h.repeatKey ≠ some key
  | ⟨_, _, _, _, _, _, repeatKey, instances⟩, h, hh => by
    rw [Group.groupsOutside] at hh
    split at hh
    · exact absurd hh List.not_mem_nil
    · rename_i other
      rcases List.mem_cons.1 hh with rfl | hh
      · exact other
      · exact GroupInstance.repeatKey_ne_of_listOutside instances h hh

theorem GroupInstance.repeatKey_ne_of_listOutside :
    ∀ l : List GroupInstance, ∀ h ∈ GroupInstance.listGroupsOutside key l, h.repeatKey ≠ some key
  | [], _, hh => absurd hh List.not_mem_nil
  | ⟨_, _, _, children⟩ :: rest, h, hh => by
    rw [GroupInstance.listGroupsOutside] at hh
    rcases List.mem_append.1 hh with hh | hh
    · exact Group.repeatKey_ne_of_listOutside children h hh
    · exact GroupInstance.repeatKey_ne_of_listOutside rest h hh

theorem Group.repeatKey_ne_of_listOutside :
    ∀ l : List Group, ∀ h ∈ Group.listGroupsOutside key l, h.repeatKey ≠ some key
  | [], _, hh => absurd hh List.not_mem_nil
  | g :: rest, h, hh => by
    rw [Group.listGroupsOutside] at hh
    rcases List.mem_append.1 hh with hh | hh
    · exact Group.repeatKey_ne_of_outside g h hh
    · exact Group.repeatKey_ne_of_listOutside rest h hh

end

mutual

theorem Group.without_eq_self (r : Removal) :
    ∀ g : Group, (∀ h ∈ g.withGroupsBelow, h.repeatKey ≠ some key) → g.without key r = g
  | ⟨own, title, kind, enabled, conditions, scope, repeatKey, instances⟩, absent => by
    rw [Group.withGroupsBelow] at absent
    have other : repeatKey ≠ some key := absent _ List.mem_cons_self
    rw [Group.without, if_neg other, GroupInstance.listWithout_eq_self r instances
      fun h hh => absent h (List.mem_cons_of_mem _ hh)]

theorem GroupInstance.listWithout_eq_self (r : Removal) :
    ∀ l : List GroupInstance, (∀ h ∈ GroupInstance.listGroups l, h.repeatKey ≠ some key) →
      GroupInstance.listWithout key r l = l
  | [], _ => rfl
  | ⟨_, _, _, children⟩ :: rest, absent => by
    rw [GroupInstance.listGroups] at absent
    rw [GroupInstance.listWithout,
      Group.listWithout_eq_self r children fun h hh => absent h (List.mem_append_left _ hh),
      GroupInstance.listWithout_eq_self r rest fun h hh => absent h (List.mem_append_right _ hh)]

theorem Group.listWithout_eq_self (r : Removal) :
    ∀ l : List Group, (∀ h ∈ Group.listGroups l, h.repeatKey ≠ some key) →
      Group.listWithout key r l = l
  | [], _ => rfl
  | g :: rest, absent => by
    rw [Group.listGroups] at absent
    rw [Group.listWithout,
      Group.without_eq_self r g fun h hh => absent h (List.mem_append_left _ hh),
      Group.listWithout_eq_self r rest fun h hh => absent h (List.mem_append_right _ hh)]

end

end

end Formwork
