import Formwork.Control.Lemmas
import Formwork.Visibility

/-!
# What a form reads of its controls

Conditions and dependencies look at the identifiers, field ids and values of controls, and at no flag.
Two sets of controls with the same readings resolve every reference alike, and so have the same
visibility plan.
-/
namespace Formwork

def BoundControl.reading (b : BoundControl) : String × String × Json :=
  (b.id, b.rawKey, b.state.value)

def BoundControl.names (b : BoundControl) : String × String := (b.id, b.rawKey)

namespace ControlSet

def readings (s : ControlSet) : List (String × String × Json) := s.map BoundControl.reading

theorem ids_eq_map_readings (s : ControlSet) : s.ids = s.readings.map (·.1) := by
  simp [ids, readings, BoundControl.reading]

theorem value?_eq_find_readings (id : String) (s : ControlSet) :
    s.value? id = (s.readings.find? fun r => r.1 = id).map (·.2.2) := by
  simp only [value?, get?, readings, List.find?_map, Option.map_map]
  rfl

/-- A change that leaves the value of the control as it is leaves the readings as they are. -/
theorem readings_modify {id : String} {f : Control → Control} {s : ControlSet}
    (h : ∀ b ∈ s, b.id = id → (f b.state).value = b.state.value) :
    (s.modify id f).readings = s.readings := by
  simp only [readings, modify, List.map_map]
  refine List.map_congr_left fun b hb => ?_
  by_cases hid : b.id = id
  · simp [hid, BoundControl.reading, h b hb hid]
  · simp [hid]

variable {s t : ControlSet}

theorem ids_congr (h : s.readings = t.readings) : s.ids = t.ids := by
  rw [ids_eq_map_readings, ids_eq_map_readings, h]

theorem value?_congr (h : s.readings = t.readings) (id : String) : s.value? id = t.value? id := by
  rw [value?_eq_find_readings, value?_eq_find_readings, h]

theorem ids_of_names (h : s.map BoundControl.names = t.map BoundControl.names) : s.ids = t.ids := by
  have told : ∀ u : ControlSet, u.ids = (u.map BoundControl.names).map (·.1) := by
    intro u
    rw [ids, List.map_map]
    rfl
  rw [told, told, h]

/-- References are resolved by the names of controls. -/
theorem resolve?_of_names (h : s.map BoundControl.names = t.map BoundControl.names) (raw : String)
    (scope : Scope) : s.resolve? raw scope = t.resolve? raw scope := by
  have first : ∀ u : ControlSet, (u.find? fun b => b.rawKey = Identifier.ofRaw raw).map
      BoundControl.id = ((u.map BoundControl.names).find? fun n => n.2 = Identifier.ofRaw raw).map
        (·.1) := by
    intro u
    simp only [List.find?_map, Option.map_map]
    rfl
  have has : ∀ (u : ControlSet) (id : String),
      u.has id = (u.map BoundControl.names).any fun n => n.1 = id := by
    intro u id
    rw [List.any_map]
    rfl
  unfold resolve?
  simp only [first, has, h]

theorem resolve?_congr (h : s.readings = t.readings) (raw : String) (scope : Scope) :
    s.resolve? raw scope = t.resolve? raw scope := by
  have told : ∀ u : ControlSet, u.map BoundControl.names = u.readings.map fun r => (r.1, r.2.1) := by
    intro u
    rw [readings, List.map_map]
    rfl
  refine resolve?_of_names ?_ raw scope
  rw [told, told, h]

/-- The readings of controls with identifiers of their own, from look-up. -/
theorem readings_eq_of_values (distinct : s.ids.Nodup)
    (names : t.map BoundControl.names = s.map BoundControl.names)
    (values : ∀ id ∈ s.ids, t.value? id = s.value? id) : t.readings = s.readings := by
  have told (u : ControlSet) (distinct : u.ids.Nodup) : u.readings =
      (u.map BoundControl.names).map fun n => (n.1, n.2, (u.value? n.1).getD .null) := by
    rw [readings, List.map_map]
    refine List.map_congr_left fun b hb => ?_
    rw [Function.comp, BoundControl.names, value?_of_get? (get?_of_mem distinct hb)]
    rfl
  rw [told t (ids_of_names names ▸ distinct), told s distinct, names, List.map_map, List.map_map]
  refine List.map_congr_left fun b hb => ?_
  rw [Function.comp, Function.comp, BoundControl.names, values b.id (List.mem_map_of_mem hb)]

end ControlSet

namespace Condition

variable {s t : ControlSet}

theorem holds_congr (h : s.readings = t.readings) (scope : Scope) (c : Condition) :
    c.holds s scope = c.holds t scope := by
  have values : s.value? = t.value? := funext fun id => ControlSet.value?_congr h id
  have same : c.subject? s scope = c.subject? t scope := by
    unfold subject?
    simp only [ControlSet.resolve?_congr h, values]
  rw [holds, holds, same]

theorem allHold_congr (h : s.readings = t.readings) (scope : Scope) (l : List Condition) :
    allHold s scope l = allHold t scope l := by
  cases l with
  | nil => rfl
  | cons first rest =>
    have joined : join s scope = join t scope := by
      funext before c
      simp only [join, holds_congr h]
    rw [allHold, allHold, joined, holds_congr h]

end Condition

variable {s t : ControlSet}

theorem PlacedField.listPlan_congr (h : s.readings = t.readings) (allowed : Bool)
    (l : List PlacedField) : listPlan s allowed l = listPlan t allowed l := by
  simp only [listPlan, Condition.allHold_congr h]

mutual

theorem Group.plan_congr (h : s.readings = t.readings) (allowed : Bool) :
    ∀ g : Group, g.plan s allowed = g.plan t allowed
  | ⟨_, _, _, _, conditions, scope, _, instances⟩ => by
    simp only [Group.plan, Condition.allHold_congr h, GroupInstance.listPlan_congr h _ instances]

theorem GroupInstance.listPlan_congr (h : s.readings = t.readings) (allowed : Bool) :
    ∀ l : List GroupInstance, GroupInstance.listPlan s allowed l = GroupInstance.listPlan t allowed l
  | [] => rfl
  | ⟨_, _, own, children⟩ :: rest => by
    simp only [GroupInstance.listPlan, PlacedField.listPlan_congr h,
      Group.listPlan_congr h _ children, GroupInstance.listPlan_congr h _ rest]

theorem Group.listPlan_congr (h : s.readings = t.readings) (allowed : Bool) :
    ∀ l : List Group, Group.listPlan s allowed l = Group.listPlan t allowed l
  | [] => rfl
  | g :: rest => by
    simp only [Group.listPlan, Group.plan_congr h _ g, Group.listPlan_congr h _ rest]

end

/-- The plan of a tree depends on the readings alone. -/
theorem FormTree.plan_congr (h : s.readings = t.readings) (tree : FormTree) :
    tree.plan s = tree.plan t := by
  rw [FormTree.plan, FormTree.plan, Group.listPlan_congr h]

end Formwork
