import Formwork.Control.Binding
import Formwork.Proofs.Session.Aspects
import Formwork.Proofs.Settling.Presenting

/-!
# What controls are bound with

Binding gives one control to each field, with the names of the field, whether it is required and whether
the template lets it be edited. Nothing that is done to a form afterwards changes this.
-/
namespace Formwork

/-- What a control is bound with: its names, whether it is required and whether the template lets it be
edited. -/
structure Cast where
  id : String
  rawKey : String
  required : Bool
  templateEnabled : Bool

def BoundControl.cast (b : BoundControl) : Cast :=
  ⟨b.id, b.rawKey, b.state.required, b.state.templateEnabled⟩

/-- A field that only shows something requires nothing. -/
def PlacedField.cast (p : PlacedField) : Cast :=
  ⟨p.controlId, Identifier.ofRaw p.field.id, p.field.required && !p.field.kind.isDecorative,
    p.field.isEnabled⟩

def ControlSet.cast (s : ControlSet) : List Cast := s.map BoundControl.cast

/-- A change of controls that leaves alone what they are bound with. -/
def Control.Keeps (f : Control → Control) : Prop :=
  ∀ c, (f c).required = c.required ∧ (f c).templateEnabled = c.templateEnabled

theorem BoundControl.lasts_cast : BoundControl.Lasts cast := fun _ _ => rfl

namespace ControlSet

theorem ids_eq_map_cast (s : ControlSet) : s.ids = s.cast.map Cast.id := by
  rw [cast, List.map_map]
  rfl

theorem names_of_cast {s t : ControlSet} (h : s.cast = t.cast) :
    s.map BoundControl.names = t.map BoundControl.names := by
  have told : ∀ u : ControlSet, u.map BoundControl.names = u.cast.map fun c => (c.id, c.rawKey) := by
    intro u
    rw [cast, List.map_map]
    rfl
  rw [told, told, h]

theorem cast_modify (id : String) {f : Control → Control} (h : Control.Keeps f) (s : ControlSet) :
    (s.modify id f).cast = s.cast :=
  map_modify (fun b => by simp only [BoundControl.cast, h b.state]) id s

theorem cast_map {f : BoundControl → BoundControl} (h : ∀ b, (f b).cast = b.cast) (s : ControlSet) :
    cast (s.map f) = s.cast := by
  rw [cast, cast, List.map_map]
  exact List.map_congr_left fun b _ => h b

theorem cast_set? {id : String} {v : Json} {s t : ControlSet} (h : s.set? id v = some t) :
    t.cast = s.cast :=
  map_set? BoundControl.lasts_cast h

theorem cast_commit (s : ControlSet) : s.commit.cast = s.cast := by
  unfold commit
  exact cast_map (f := fun b => { b with state := b.state.commit }) (fun _ => rfl) s

/-- Where the fields have identifiers of their own, each of them gets a control. -/
theorem ofTree_eq_map (c : Circumstances) (before : Fields) {t : FormTree}
    (distinct : (t.fields.map (·.controlId)).Nodup) :
    ofTree c before t =
      t.fields.map fun p => ⟨p.controlId, Identifier.ofRaw p.field.id, p.freshControl c before⟩ := by
  have bound : ∀ (fields : List PlacedField) (s : ControlSet),
      (fields.map (·.controlId)).Nodup → (∀ p ∈ fields, p.controlId ∉ s.ids) →
      fields.foldl (fun s p => (s.bind? p.controlId p.field.id (p.freshControl c before)).getD s) s =
        s ++ fields.map fun p =>
          ⟨p.controlId, Identifier.ofRaw p.field.id, p.freshControl c before⟩ := by
    intro fields
    induction fields with
    | nil => exact fun s _ _ => (List.append_nil s).symm
    | cons p fields ih =>
      intro s distinct fresh
      obtain ⟨unused, distinct⟩ := List.nodup_cons.1 distinct
      have absent : s.has p.controlId = false := by
        refine Bool.eq_false_iff.2 fun there => ?_
        exact fresh p List.mem_cons_self (has_eq_true_iff.1 there)
      have step : (s.bind? p.controlId p.field.id (p.freshControl c before)).getD s =
          s ++ [⟨p.controlId, Identifier.ofRaw p.field.id, p.freshControl c before⟩] := by
        simp [bind?, absent]
      rw [List.foldl_cons, step, ih _ distinct, List.append_assoc]
      · rfl
      · intro q hq
        rw [ids, List.map_append, List.mem_append, not_or]
        refine ⟨fresh q (List.mem_cons_of_mem _ hq), fun same => unused ?_⟩
        rw [← List.mem_singleton.1 same]
        exact List.mem_map_of_mem hq
  exact bound t.fields [] distinct fun _ _ => List.not_mem_nil

theorem cast_ofTree (c : Circumstances) (before : Fields) {t : FormTree}
    (distinct : (t.fields.map (·.controlId)).Nodup) :
    (ofTree c before t).cast = t.fields.map PlacedField.cast := by
  rw [ofTree_eq_map c before distinct, cast, List.map_map]
  rfl

end ControlSet

theorem Catalog.cast_reconcile (c : Catalog) (controls : ControlSet) :
    (c.reconcile controls).cast = controls.cast :=
  c.map_reconcile BoundControl.lasts_cast controls

theorem Lookup.cast_select? {config : Config} {l : Lookup} {field : PlacedField} {selected : Json}
    {s t : ControlSet} (h : l.select? config field selected s = some t) : t.cast = s.cast :=
  map_select? BoundControl.lasts_cast h

theorem Lookup.cast_clear? {l : Lookup} {field : PlacedField} {s t : ControlSet}
    (h : l.clear? field s = some t) : t.cast = s.cast :=
  map_clear? BoundControl.lasts_cast h

namespace Dependent

theorem follow_keeps (link : String) (parent : Json) (d : Dependent) :
    (d.follow link parent).control.required = d.control.required ∧
      (d.follow link parent).control.templateEnabled = d.control.templateEnabled := by
  have written := follow_unshown link parent d
  constructor
  · have required := congrArg Control.required written
    rw [apply_ite Control.required] at required
    exact required.trans (ite_self _)
  · have enabled := congrArg Control.templateEnabled written
    rw [apply_ite Control.templateEnabled] at enabled
    exact enabled.trans (ite_self _)

end Dependent

theorem Refresh.cast_follow {config : Config} {r : Refresh} (distinct : r.controls.ids.Nodup)
    (e : Dependency) : (follow config r e).controls.cast = r.controls.cast := by
  rcases follow_cases config r e with ⟨same, -⟩ | ⟨rule, child, hrule, hchild⟩
  · rw [same]
  · rw [follow_of_some hrule hchild]
    simp only [ControlSet.cast, ControlSet.modify, List.map_map]
    refine List.map_congr_left fun b hb => ?_
    by_cases hid : b.id = e.child
    · have state := ControlSet.state_eq_of_get? distinct hchild b hb hid
      simp [hid, BoundControl.cast, Dependent.follow_keeps, state]
    · simp [hid]

theorem Refresh.cast_followAll {config : Config} {edges : List Dependency} {controls : ControlSet}
    (distinct : controls.ids.Nodup) (catalog : Catalog) :
    (followAll config edges controls catalog).controls.cast = controls.cast := by
  have followed : ∀ (edges : List Dependency) (r : Refresh), r.controls.ids.Nodup →
      (edges.foldl (follow config) r).controls.cast = r.controls.cast := by
    intro edges
    induction edges with
    | nil => exact fun _ _ => rfl
    | cons e edges ih =>
      intro r distinct
      exact (ih _ (by rwa [ids_follow])).trans (cast_follow distinct e)
  exact followed edges ⟨controls, catalog, false⟩ distinct

theorem Control.keeps_present (visible : Bool) : Control.Keeps (present visible) := by
  intro c
  unfold present
  dsimp only
  split <;> exact ⟨rfl, rfl⟩

theorem VisibilityPlan.cast_apply (p : VisibilityPlan) (controls : ControlSet) :
    ControlSet.cast (p.apply controls).1 = controls.cast := by
  rw [apply_eq_foldl]
  have carried : ∀ (fields : List (String × Bool)) (acc : ControlSet × List String),
      ControlSet.cast (fields.foldl carryOut acc).1 = acc.1.cast := by
    intro fields
    induction fields with
    | nil => exact fun _ => rfl
    | cons e fields ih =>
      intro acc
      exact (ih _).trans (ControlSet.cast_modify e.1 (Control.keeps_present e.2) acc.1)
  exact carried p.fields (controls, [])

end Formwork
