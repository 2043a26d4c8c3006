import Formwork.Proofs.Filling
import Formwork.Proofs.Layout.Frames

/-!
# What references mean

A reference from inside an instance of a repeated group looks up the name that a field of the instance would ask
for, from the innermost instance outwards. If an instance has such a field, its name is given to some control, so
the look-up ends there or further in; and unless another control has a name as it is given in the instance, what
is found is in the instance. If nothing is found, the reference means the first control for its id.
-/
namespace Formwork

/-- The identifier begins as those inside the instance do. -/
def Frame.Opens (frame : Frame) (id : String) : Prop := frame.opening.toList <+: id.toList

instance (frame : Frame) (id : String) : Decidable (frame.Opens id) :=
  inferInstanceAs (Decidable (frame.opening.toList <+: id.toList))

theorem Frame.opens_append (frame : Frame) (rest : String) : frame.Opens (frame.opening ++ rest) := by
  rw [Opens, String.toList_append]
  exact List.prefix_append _ _

/-- The field stands in the instance, or in a group there that does not repeat. -/
inductive GroupInstance.Carries : GroupInstance → PlacedField → Prop where
  /-- The field stands in the instance. -/
  | here {i : GroupInstance} {f : PlacedField} : f ∈ i.fields → Carries i f
  /-- The field is carried by a group that stands in the instance and does not repeat. -/
  | deeper {i j : GroupInstance} {g : Group} {f : PlacedField} :
      g ∈ i.children → g.repeatKey = none → j ∈ g.instances → Carries j f → Carries i f

/-- A field or a group of the tree has the scope. -/
def FormTree.Occurs (t : FormTree) (scope : Scope) : Prop :=
  (∃ f ∈ t.fields, f.scope = scope) ∨ ∃ g ∈ t.allGroups, g.scope = scope

instance (t : FormTree) (scope : Scope) : Decidable (t.Occurs scope) :=
  inferInstanceAs (Decidable ((∃ f ∈ t.fields, f.scope = scope) ∨ ∃ g ∈ t.allGroups, g.scope = scope))

namespace FormTree

variable {layout : Layout} {t : Template} {registry final : Registry} {tree : FormTree}
  (built : build layout t registry = (tree, final)) {scope : Scope} {frame : Frame} {i : GroupInstance}

include built

/-- A scope that occurs is linked. -/
theorem linked_of_occurs (occurs : tree.Occurs scope) : scope.Linked := by
  rcases occurs with ⟨f, hf, rfl⟩ | ⟨g, hg, rfl⟩
  · obtain ⟨g, hg, i, hi, own⟩ := exists_own hf
    have makes := makes_of_build built hg
    rw [(makes.scope_and_name_of_mem_fields hi own).1]
    exact makes.linked_scopeIn (linked_scope built g hg) i
  · exact linked_scope built g hg

/-- A frame of a scope stands for one instance, and everything with the scope is in it. -/
theorem exists_standsFor (occurs : tree.Occurs scope) (hframe : frame ∈ scope) :
    ∃ i, (∀ j, frame.StandsFor tree j ↔ j = i) ∧ (∀ f ∈ tree.fields, f.scope = scope → f ∈ i.allFields) ∧
      ∀ g ∈ tree.allGroups, g.scope = scope → g ∈ Group.listGroups i.children := by
  obtain ⟨i, stands⟩ : ∃ i, frame.StandsFor tree i := by
    rcases occurs with ⟨f, hf, rfl⟩ | ⟨g, hg, rfl⟩
    · exact (exists_around_field built f hf frame hframe).imp fun _ around => around.1
    · exact (exists_around_group built g hg frame hframe).imp fun _ around => around.1
  refine ⟨i, fun j => ⟨fun other => eq_of_standsFor built other stands, fun same => same ▸ stands⟩, ?_, ?_⟩
  · rintro f hf rfl
    obtain ⟨j, other, inside⟩ := exists_around_field built f hf frame hframe
    rwa [eq_of_standsFor built stands other]
  · rintro g hg rfl
    obtain ⟨j, other, inside⟩ := exists_around_group built g hg frame hframe
    rwa [eq_of_standsFor built stands other]

/-- What an instance carries has the scope of what stands in it. -/
theorem scope_of_carries {f : PlacedField} (carries : i.Carries f) :
    ∀ g ∈ tree.allGroups, i ∈ g.instances → f ∈ tree.fields ∧ f.scope = g.scopeIn i := by
  induction carries with
  | here own =>
    intro g hg hi
    have inside := FormTree.allFields_subset_fields hg hi (List.mem_append_left _ own)
    exact ⟨inside, ((makes_of_build built hg).scope_and_name_of_mem_fields hi own).1⟩
  | @deeper i j c f hc plain hj _ ih =>
    intro g hg hi
    have there : c ∈ tree.allGroups := FormTree.listGroups_subset_allGroups hg hi
      (Group.withGroupsBelow_subset_of_mem hc c.mem_withGroupsBelow_self)
    obtain ⟨inside, scope⟩ := ih c there hj
    refine ⟨inside, scope.trans ?_⟩
    rw [Group.scopeIn_of_plain plain, (makes_of_build built hg).scope_of_mem_children hi c hc]

/-- If an instance carries a field for the id, the name that it gives to one is that of a control. -/
theorem exists_field_of_carries {f : PlacedField} (carries : i.Carries f) (stands : frame.StandsFor tree i) :
    ∃ h ∈ tree.fields, h.controlId = frame.identifier f.field.id := by
  obtain ⟨key, stem, ⟨g, hg, repeats, hi⟩, number⟩ := stands
  obtain ⟨inside, scope⟩ := scope_of_carries built carries g hg hi
  obtain ⟨h, hh, named⟩ := exists_asked built inside
  refine ⟨h, hh, named.trans ?_⟩
  rw [PlacedField.asked, scope, Group.scopeIn_of_numbered repeats number, Scope.identifier_eq,
    Blueprint.opening_instanceScope, Frame.identifier, Frame.opening, stem]

end FormTree

namespace ControlSet

/-- Outside of all instances, a reference means the first control for its id. -/
theorem resolve?_nil (raw : String) (s : ControlSet) : s.resolve? raw [] =
    (s.find? fun b => b.rawKey = Identifier.ofRaw raw).map BoundControl.id := rfl

variable {layout : Layout} {t : Template} {registry final : Registry} {tree : FormTree}
  (built : FormTree.build layout t registry = (tree, final)) (c : Circumstances) (before : Fields)

include built

theorem ofTree_of_build : ofTree c before tree = tree.fields.map fun p =>
    ⟨p.controlId, Identifier.ofRaw p.field.id, p.freshControl c before⟩ := by
  have distinct := FormTree.nodup_controlIds_build layout t registry
  rw [built] at distinct
  exact ofTree_eq_map c before distinct

theorem ids_ofTree : (ofTree c before tree).ids = tree.fields.map (·.controlId) := by
  rw [ofTree_of_build built, ids, List.map_map]
  rfl

/-- The first control for an id is that of the first field. -/
theorem resolve?_nil_ofTree (raw : String) : (ofTree c before tree).resolve? raw [] =
    (tree.fields.find? fun f => Identifier.ofRaw f.field.id = Identifier.ofRaw raw).map (·.controlId) := by
  rw [resolve?_nil, ofTree_of_build built, List.find?_map, Option.map_map]
  rfl

/-- A frame of a scope that occurs stands for one instance, which is around everything that has the scope. If it
carries a field for an id, the innermost such instance or any other, and no control outside of it has an
identifier as they are given in it, a reference by the id means a control inside of it. If no frame of the scope
gives the identifier of a control, a reference means the first control for the id, if there is one. -/
theorem resolve?_ofTree {scope : Scope} (occurs : tree.Occurs scope) (raw : String) :
    (∀ frame ∈ scope, ∃ i : GroupInstance, (∀ j, frame.StandsFor tree j ↔ j = i) ∧
        (∀ f ∈ tree.fields, f.scope = scope → f ∈ i.allFields) ∧
        (∀ g ∈ tree.allGroups, g.scope = scope → g ∈ Group.listGroups i.children) ∧
        ((∃ f, i.Carries f ∧ Identifier.ofRaw f.field.id = Identifier.ofRaw raw) →
          (∀ id ∈ (ofTree c before tree).ids, ¬i.Has id → ¬frame.Opens id) →
            ∃ id, (ofTree c before tree).resolve? raw scope = some id ∧ i.Has id)) ∧
      ((∀ frame ∈ scope, frame.identifier raw ∉ (ofTree c before tree).ids) →
        (ofTree c before tree).resolve? raw scope = (tree.fields.find? fun f =>
            Identifier.ofRaw f.field.id = Identifier.ofRaw raw).map (·.controlId) ∧
          ((ofTree c before tree).resolve? raw scope = none ↔
            ∀ f ∈ tree.fields, Identifier.ofRaw f.field.id ≠ Identifier.ofRaw raw)) := by
  refine ⟨fun frame hframe => ?_, fun absent => ?_⟩
  · obtain ⟨i, alone, around⟩ := FormTree.exists_standsFor built occurs hframe
    refine ⟨i, alone, around.1, around.2, ?_⟩
    rintro ⟨f, carries, same⟩ apart
    have given : frame.identifier raw ∈ (ofTree c before tree).ids := by
      obtain ⟨h, hh, named⟩ := FormTree.exists_field_of_carries built carries ((alone i).2 rfl)
      rw [ids_ofTree built, Frame.identifier, ← same]
      exact List.mem_map.2 ⟨h, hh, named⟩
    obtain ⟨outer, inner, rfl⟩ := List.append_of_mem hframe
    have names := (FormTree.linked_of_occurs built occurs).exists_identifier raw
    rcases (ofTree c before tree).resolve?_append_cases raw outer (frame :: inner) with
      ⟨later, hlater, there, meant⟩ | ⟨absent, -⟩
    · refine ⟨later.identifier raw, meant, Classical.byContradiction fun outside => ?_⟩
      obtain ⟨rest, named⟩ := names later hlater
      exact apart _ there outside (named ▸ frame.opens_append rest)
    · exact absurd given (absent frame List.mem_cons_self)
  · have meant : (ofTree c before tree).resolve? raw scope = (ofTree c before tree).resolve? raw [] := by
      rcases (ofTree c before tree).resolve?_append_cases raw [] scope with ⟨frame, hframe, there, -⟩ | ⟨-, same⟩
      · exact absurd there (absent frame hframe)
      · exact same
    rw [meant, resolve?_nil_ofTree built]
    refine ⟨rfl, ?_⟩
    simp only [Option.map_eq_none_iff, List.find?_eq_none, decide_eq_true_eq, ne_eq]

end ControlSet

namespace Session

/-- Two contacts, each with a name among the details and with a list of phones. -/
def addressBook : Session :=
  .start "" {} ⟨none, [sectionOf "Contacts" (some 2) []
    [sectionOf "Details" none ["name"] [], sectionOf "Phones" (some 1) ["phone"] []]], [], []⟩

/-- From a phone of the second contact, the name is that of this contact. From the contact itself a phone is
none of its own, and there is no fax at all. -/
theorem resolve?_ofTree_addressBook :
    let built := FormTree.build ⟨none, [], 99⟩ addressBook.template .empty
    let controls := ControlSet.ofTree addressBook.circumstances [] built.1
    built.1.Occurs [⟨"contacts_", 2⟩, ⟨"contacts_2_phones_", 1⟩] ∧ built.1.Occurs [⟨"contacts_", 2⟩] ∧
      (∃ i, (⟨"contacts_", 2⟩ : Frame).StandsFor built.1 i ∧ ∃ id, i.Has id ∧
        controls.resolve? "name" [⟨"contacts_", 2⟩, ⟨"contacts_2_phones_", 1⟩] = some id) ∧
      controls.resolve? "phone" [⟨"contacts_", 2⟩] = some "contacts_1_phones_1_phone" ∧
      controls.resolve? "fax" [⟨"contacts_", 2⟩] = none := by
  intro built controls
  have phones : built.1.Occurs [⟨"contacts_", 2⟩, ⟨"contacts_2_phones_", 1⟩] := by decide +kernel
  have contact : built.1.Occurs [⟨"contacts_", 2⟩] := by decide +kernel
  obtain ⟨g, hg, repeats, j, hj, apart, number, details, there, plain, k, hk, f, hf, named⟩ :
      ∃ g ∈ built.1.allGroups, g.repeatKey = some "contacts" ∧ ∃ j ∈ g.instances,
        (∀ id ∈ controls.ids, ¬j.Has id → ¬(⟨"contacts_", 2⟩ : Frame).Opens id) ∧ j.index = some 2 ∧
          ∃ d ∈ j.children, d.repeatKey = none ∧ ∃ k ∈ d.instances, ∃ f ∈ k.fields,
            Identifier.ofRaw f.field.id = Identifier.ofRaw "name" := by
    decide +kernel
  have stands : (⟨"contacts_", 2⟩ : Frame).StandsFor built.1 j :=
    ⟨"contacts", rfl, ⟨g, hg, repeats, hj⟩, number⟩
  obtain ⟨inside, -⟩ :=
    ControlSet.resolve?_ofTree rfl addressBook.circumstances [] phones "name"
  obtain ⟨i, alone, -, -, means⟩ := inside ⟨"contacts_", 2⟩ List.mem_cons_self
  obtain rfl := (alone j).1 stands
  obtain ⟨id, meant, has⟩ := means ⟨f, .deeper there plain hk (.here hf), named⟩ apart
  obtain ⟨-, outside⟩ := ControlSet.resolve?_ofTree rfl addressBook.circumstances [] contact "phone"
  obtain ⟨first, -⟩ := outside (by decide +kernel)
  obtain ⟨-, nowhere⟩ := ControlSet.resolve?_ofTree rfl addressBook.circumstances [] contact "fax"
  obtain ⟨-, none⟩ := nowhere (by decide +kernel)
  exact ⟨phones, contact, ⟨j, stands, id, has, meant⟩, first.trans (by decide +kernel),
    none.2 (by decide +kernel)⟩

end Session

end Formwork
