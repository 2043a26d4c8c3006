import Formwork.Proofs.Layout.Parts
import Formwork.Proofs.Layout.Scopes
import Formwork.Proofs.Visibility.Ways
import Mathlib.Data.List.Nodup

/-!
# Frames and the instances that they stand for

A frame gives the group and the number of an instance, and in a tree that is laid out there is one instance for
it. What stands directly in an instance has the scope of the group, with a frame for the instance if the group
repeats, so all frames of a scope stand for instances around the place, and each frame is named by those around
it. The name that a field asks for in its scope is given to some field, if not to this one.
-/
namespace Formwork

/-! ## Frames within frames -/

/-- Every frame is named by the frames around it. -/
def Scope.Linked (scope : Scope) : Prop :=
  scope.Pairwise fun outer inner => ∃ rest, inner.stem = outer.opening ++ rest

namespace Scope.Linked

variable {scope outer inner : Scope} {frame : Frame}

/-- What is named in the scope is named by each of its frames. -/
theorem exists_opening (h : scope.Linked) (hframe : frame ∈ scope) :
    ∃ rest, scope.opening = frame.opening ++ rest := by
  rcases scope.eq_nil_or_concat' with rfl | ⟨before, last, rfl⟩
  · exact absurd hframe List.not_mem_nil
  · have opening : Scope.opening (before ++ [last]) = last.opening := by simp [Scope.opening]
    rw [opening]
    rcases List.mem_append.1 hframe with earlier | same
    · obtain ⟨-, -, names⟩ := List.pairwise_append.1 h
      obtain ⟨rest, stem⟩ := names frame earlier last List.mem_cons_self
      exact ⟨rest ++ Text.ofNat last.index ++ "_", by
        rw [Frame.opening, stem, String.append_assoc, String.append_assoc, String.append_assoc]⟩
    · obtain rfl := List.mem_singleton.1 same
      exact ⟨"", String.append_empty.symm⟩

theorem instanceScope (h : scope.Linked) {key : String} (begins : ∃ rest, key = scope.opening ++ rest)
    (n : Nat) : (Blueprint.instanceScope scope key n).Linked := by
  obtain ⟨rest, rfl⟩ := begins
  refine List.pairwise_append.2 ⟨h, List.pairwise_singleton _ _, fun frame hframe last hlast => ?_⟩
  obtain rfl := List.mem_singleton.1 hlast
  obtain ⟨more, opening⟩ := h.exists_opening hframe
  exact ⟨more ++ rest ++ "_", by simp only [opening, String.append_assoc]⟩

/-- From a frame inwards, an identifier begins as the frame says. -/
theorem exists_identifier (h : Scope.Linked (outer ++ frame :: inner)) (raw : String) :
    ∀ later ∈ frame :: inner, ∃ rest, later.identifier raw = frame.opening ++ rest := by
  intro later hlater
  obtain ⟨-, names, -⟩ := List.pairwise_append.1 h
  rcases List.mem_cons.1 hlater with rfl | hlater
  · exact ⟨Identifier.ofRaw raw, rfl⟩
  · obtain ⟨rest, stem⟩ := (List.pairwise_cons.1 names).1 later hlater
    exact ⟨rest ++ Text.ofNat later.index ++ "_" ++ Identifier.ofRaw raw, by
      simp only [Frame.identifier, Frame.opening, stem, String.append_assoc]⟩

end Scope.Linked

/-! ## What stands in an instance -/

/-- The scope of what stands directly in an instance of the group. -/
def Group.scopeIn (g : Group) (i : GroupInstance) : Scope :=
  match g.repeatKey, i.index with
  | some key, some n => Blueprint.instanceScope g.scope key n
  | _, _ => g.scope

section

variable {g : Group} {i : GroupInstance}

theorem Group.scopeIn_of_plain (plain : g.repeatKey = none) : g.scopeIn i = g.scope := by
  rw [scopeIn, plain]

theorem Group.scopeIn_of_numbered {key : String} {n : Nat} (repeats : g.repeatKey = some key)
    (number : i.index = some n) : g.scopeIn i = Blueprint.instanceScope g.scope key n := by
  rw [scopeIn, repeats, number]

/-- The scope is that of the group, or has one frame more for the instance. -/
theorem Group.scopeIn_cases (g : Group) (i : GroupInstance) : g.scopeIn i = g.scope ∨
    ∃ key n, g.repeatKey = some key ∧ i.index = some n ∧
      g.scopeIn i = Blueprint.instanceScope g.scope key n := by
  cases repeats : g.repeatKey with
  | none => exact .inl (scopeIn_of_plain repeats)
  | some key =>
    cases number : i.index with
    | none => exact .inl (by rw [scopeIn, repeats, number])
    | some n => exact .inr ⟨key, n, rfl, rfl, scopeIn_of_numbered repeats number⟩

end

namespace Blueprint

variable (layout : Layout) (kind : GroupKind) (scope : Scope) (p : Progress)

theorem scope_layOut (b : Blueprint) : (layOut layout kind scope p b).1.scope = scope := by
  obtain ⟨s, fields, subsections⟩ := b
  cases hs : s.repeats? with
  | none => rw [layOut_of_plain layout kind scope p fields subsections hs]
  | some spec => rw [layOut_of_settled layout kind scope p fields subsections hs]

theorem scope_of_mem_layOutList (l : List Blueprint) :
    ∀ c ∈ (layOutList layout scope p l).1, c.scope = scope := by
  induction l generalizing p with
  | nil =>
    rw [layOutList]
    exact fun c hc => absurd hc List.not_mem_nil
  | cons b l ih =>
    rw [layOutList_cons]
    exact List.forall_mem_cons.2 ⟨scope_layOut layout .subsection scope p b, ih _⟩

end Blueprint

namespace Layout.Makes

variable {layout : Layout} {g : Group} {i : GroupInstance} {f : PlacedField}

/-- What stands in an instance of the group is laid out in the scope of the instance. -/
theorem exists_body (h : layout.Makes g) (hi : i ∈ g.instances) :
    ∃ fields subsections p,
      (i.fields, i.children) = (Blueprint.layOutBody layout (g.scopeIn i) fields subsections p).1 := by
  obtain ⟨kind, scope, ⟨s, fields, subsections⟩, p, -, rfl⟩ := h
  cases hs : s.repeats? with
  | none =>
    rw [Blueprint.layOut_of_plain layout kind scope p fields subsections hs] at hi ⊢
    obtain rfl := List.mem_singleton.1 hi
    exact ⟨fields, subsections, _, rfl⟩
  | some spec =>
    rw [Blueprint.layOut_of_settled layout kind scope p fields subsections hs] at hi ⊢
    obtain ⟨n, -, q, rfl⟩ := exists_of_mem_threaded hi
    exact ⟨fields, subsections, q, rfl⟩

theorem scope_of_mem_children (h : layout.Makes g) (hi : i ∈ g.instances) :
    ∀ c ∈ i.children, c.scope = g.scopeIn i := by
  obtain ⟨fields, subsections, p, body⟩ := h.exists_body hi
  rw [(Prod.mk.inj body).2]
  exact Blueprint.scope_of_mem_layOutList layout (g.scopeIn i) _ subsections

/-- A field that stands in an instance has its scope, and is called as it asks to be or by a later variant. -/
theorem scope_and_name_of_mem_fields (h : layout.Makes g) (hi : i ∈ g.instances) (hf : f ∈ i.fields) :
    f.scope = g.scopeIn i ∧ ∃ m, f.controlId = variant f.asked (controlVariant f.asked) m := by
  obtain ⟨fields, subsections, p, body⟩ := h.exists_body hi
  rw [(Prod.mk.inj body).1] at hf
  obtain ⟨field, -, q, rfl⟩ := exists_of_mem_threaded hf
  obtain ⟨m, chosen, -⟩ := unusedName_eq_variant ((g.scopeIn i).identifier field.id)
    (controlVariant_injective _) q.controlIds
  exact ⟨rfl, m, chosen⟩

/-- The key of a repeated group begins as the names in its scope do. -/
theorem exists_key (h : layout.Makes g) {key : String} (repeats : g.repeatKey = some key) :
    ∃ rest, key = g.scope.opening ++ rest := by
  obtain ⟨kind, scope, ⟨s, fields, subsections⟩, p, -, rfl⟩ := h
  cases hs : s.repeats? with
  | none =>
    rw [Blueprint.layOut_of_plain layout kind scope p fields subsections hs] at repeats
    cases repeats
  | some spec =>
    rw [Blueprint.layOut_of_settled layout kind scope p fields subsections hs] at repeats ⊢
    obtain rfl := Option.some.inj repeats
    exact Blueprint.groupName_begins p scope s

theorem linked_scopeIn (h : layout.Makes g) (linked : g.scope.Linked) (i : GroupInstance) :
    (g.scopeIn i).Linked := by
  rcases g.scopeIn_cases i with plain | ⟨key, n, repeats, -, numbered⟩
  · rwa [plain]
  · rw [numbered]
    exact linked.instanceScope (h.exists_key repeats) n

/-- Instances of a repeated group with the same number are the same. -/
theorem eq_of_index (h : layout.Makes g) {key : String} (repeats : g.repeatKey = some key)
    {j : GroupInstance} (hi : i ∈ g.instances) (hj : j ∈ g.instances) (same : i.index = j.index) : i = j := by
  have distinct : (g.instances.map GroupInstance.index).Nodup := by
    rw [h.numbers key repeats]
    exact List.Nodup.map (fun _ _ => Option.some.inj) List.nodup_range'
  exact List.inj_on_of_nodup_map distinct hi hj same

end Layout.Makes

/-! ## Frames in a tree -/

section

variable {P : Group → Prop}

mutual

theorem Group.forall_withGroupsBelow (below : ∀ g, P g → ∀ i ∈ g.instances, ∀ c ∈ i.children, P c) :
    ∀ g : Group, P g → ∀ h ∈ g.withGroupsBelow, P h
  | ⟨_, _, _, _, _, _, _, instances⟩, hg, h, hh => by
    rcases List.mem_cons.1 hh with rfl | hh
    · exact hg
    · exact GroupInstance.forall_listGroups below instances (fun i hi => below _ hg i hi) h hh

theorem GroupInstance.forall_listGroups
    (below : ∀ g, P g → ∀ i ∈ g.instances, ∀ c ∈ i.children, P c) :
    ∀ l : List GroupInstance, (∀ i ∈ l, ∀ c ∈ i.children, P c) → ∀ h ∈ GroupInstance.listGroups l, P h
  | [], _, _, hh => absurd hh List.not_mem_nil
  | ⟨_, _, _, children⟩ :: rest, all, h, hh => by
    obtain ⟨first, others⟩ := List.forall_mem_cons.1 all
    rcases List.mem_append.1 hh with hh | hh
    · exact Group.forall_listGroups below children first h hh
    · exact GroupInstance.forall_listGroups below rest others h hh

theorem Group.forall_listGroups (below : ∀ g, P g → ∀ i ∈ g.instances, ∀ c ∈ i.children, P c) :
    ∀ l : List Group, (∀ g ∈ l, P g) → ∀ h ∈ Group.listGroups l, P h
  | [], _, _, hh => absurd hh List.not_mem_nil
  | g :: rest, all, h, hh => by
    obtain ⟨first, others⟩ := List.forall_mem_cons.1 all
    rcases List.mem_append.1 hh with hh | hh
    · exact Group.forall_withGroupsBelow below g first h hh
    · exact Group.forall_listGroups below rest others h hh

end

end

/-- What holds of the groups at the top, and of those that stand in an instance of a group if it holds of the
group, holds of every group of the tree. -/
theorem FormTree.forall_allGroups {t : FormTree} {P : Group → Prop} (top : ∀ g ∈ t.groups, P g)
    (below : ∀ g ∈ t.allGroups, P g → ∀ i ∈ g.instances, ∀ c ∈ i.children, P c) :
    ∀ g ∈ t.allGroups, P g := by
  have both : ∀ g ∈ t.allGroups, g ∈ t.allGroups ∧ P g := by
    refine Group.forall_listGroups (P := fun g => g ∈ t.allGroups ∧ P g) ?_ t.groups fun g hg => ?_
    · rintro g ⟨hg, holds⟩ i hi c hc
      have there := Group.withGroupsBelow_subset_of_mem hc c.mem_withGroupsBelow_self
      exact ⟨FormTree.listGroups_subset_allGroups hg hi there, below g hg holds i hi c hc⟩
    · exact ⟨Group.withGroupsBelow_subset_of_mem hg g.mem_withGroupsBelow_self, top g hg⟩
  exact fun g hg => (both g hg).2

/-- The frame stands for the instance: it gives the key of its group and its number. -/
def Frame.StandsFor (t : FormTree) (frame : Frame) (i : GroupInstance) : Prop :=
  ∃ key, frame.stem = key ++ "_" ∧ i.Under key t.allGroups ∧ i.index = some frame.index

namespace FormTree

variable {layout : Layout} {t : Template} {registry final : Registry} {tree : FormTree}
  (built : build layout t registry = (tree, final)) {f : PlacedField} {g : Group} {frame : Frame}
  {i j : GroupInstance}

include built

theorem scope_of_mem_groups (hg : g ∈ tree.groups) : g.scope = [] := by
  have groups := congrArg (fun made => made.1.groups) built
  dsimp only at groups
  rw [← groups] at hg
  obtain ⟨b, -, p, rfl⟩ := exists_of_mem_threaded hg
  exact Blueprint.scope_layOut layout .topSection [] p b

/-- A frame stands for one instance at most. -/
theorem eq_of_standsFor (hi : frame.StandsFor tree i) (hj : frame.StandsFor tree j) : i = j := by
  obtain ⟨key, stem, ⟨g, hg, repeats, hi⟩, number⟩ := hi
  obtain ⟨key', stem', ⟨g', hg', repeats', hj⟩, number'⟩ := hj
  obtain rfl : key = key' := String.append_left_inj "_" |>.1 (stem.symm.trans stem')
  obtain rfl := eq_of_repeatKey built hg hg' repeats repeats'
  exact (makes_of_build built hg).eq_of_index repeats hi hj (number.trans number'.symm)

/-- Frames in the scope of a group are named by those around them. -/
theorem linked_scope : ∀ g ∈ tree.allGroups, g.scope.Linked := by
  refine forall_allGroups (fun g hg => ?_) fun g hg linked i hi c hc => ?_
  · rw [scope_of_mem_groups built hg]
    exact .nil
  · have makes := makes_of_build built hg
    rw [makes.scope_of_mem_children hi c hc]
    exact makes.linked_scopeIn linked i

omit built in
/-- A frame in the scope of what stands in an instance is in the scope of the group, or it stands for the
instance. -/
theorem mem_scopeIn_cases (hg : g ∈ tree.allGroups) (hi : i ∈ g.instances) (hframe : frame ∈ g.scopeIn i) :
    frame ∈ g.scope ∨ frame.StandsFor tree i := by
  rcases g.scopeIn_cases i with plain | ⟨key, n, repeats, number, numbered⟩
  · exact .inl (plain ▸ hframe)
  · rw [numbered, Blueprint.instanceScope] at hframe
    refine (List.mem_append.1 hframe).imp_right fun same => ?_
    obtain rfl := List.mem_singleton.1 same
    exact ⟨key, rfl, ⟨g, hg, repeats, hi⟩, number⟩

/-- A frame in the scope of a group stands for an instance that the group is in. -/
theorem exists_around_group :
    ∀ g ∈ tree.allGroups, ∀ frame ∈ g.scope, ∃ i, frame.StandsFor tree i ∧ g ∈ Group.listGroups i.children := by
  refine forall_allGroups (fun g hg => ?_) fun g hg around i hi c hc frame hframe => ?_
  · rw [scope_of_mem_groups built hg]
    exact fun frame hframe => absurd hframe List.not_mem_nil
  · have inside := Group.withGroupsBelow_subset_of_mem hc c.mem_withGroupsBelow_self
    rw [(makes_of_build built hg).scope_of_mem_children hi c hc] at hframe
    rcases mem_scopeIn_cases hg hi hframe with outer | stands
    · obtain ⟨j, stands, further⟩ := around frame outer
      exact ⟨j, stands, Group.withGroupsBelow_subset_list j.children g further
        (Group.listGroups_subset_withGroupsBelow hi inside)⟩
    · exact ⟨i, stands, inside⟩

/-- A frame in the scope of a field stands for an instance that the field is in. -/
theorem exists_around_field :
    ∀ f ∈ tree.fields, ∀ frame ∈ f.scope, ∃ i, frame.StandsFor tree i ∧ f ∈ i.allFields := by
  intro f hf frame hframe
  obtain ⟨g, hg, i, hi, own⟩ := exists_own hf
  rw [((makes_of_build built hg).scope_and_name_of_mem_fields hi own).1] at hframe
  rcases mem_scopeIn_cases hg hi hframe with outer | stands
  · obtain ⟨j, stands, further⟩ := exists_around_group built g hg frame outer
    have inside : f ∈ g.fields := Group.allFields_subset_fields hi (List.mem_append_left _ own)
    exact ⟨j, stands, List.mem_append_right _ (Group.fields_subset_of_listGroups j.children g further inside)⟩
  · exact ⟨i, stands, List.mem_append_left _ own⟩

/-- What a field asks to be called, some field is called. -/
theorem exists_asked (hf : f ∈ tree.fields) : ∃ h ∈ tree.fields, h.controlId = f.asked := by
  obtain ⟨g, hg, i, hi, own⟩ := exists_own hf
  obtain ⟨-, m, name⟩ := (makes_of_build built hg).scope_and_name_of_mem_fields hi own
  by_cases first : m < 2
  · exact ⟨f, hf, by rw [name, variant, if_pos first]⟩
  · have gives : f.GivesWayTo f.asked := by
      refine ⟨m, by omega, ?_, 0, by omega, rfl⟩
      rw [name, variant, if_neg first]
    have there : f ∈ (build layout t registry).1.fields := by rwa [built]
    obtain ⟨h, hh, named⟩ := exists_of_givesWayTo there gives
    rw [built] at hh
    exact ⟨h, hh, named⟩

end FormTree

end Formwork
