import Formwork.Proofs.Layout.Numbers
import Formwork.Proofs.Layout.Thinning

/-!
# A form section by section

A form is laid out for a step section by section. What is laid out for a section in one step is compared
with what is laid out for it where all sections are shown, which no step has to do with.
-/
namespace Formwork

structure Part where
  number : Nat
  source : Section
  group : Group

def Part.origins (x : Part) : List Origin := (Blueprint.ofSection x.source).origins x.group

/-- Lays out sections one after another. -/
def Progress.parts (layout : Layout) (p : Progress) (l : List (Section × Nat)) : List Part :=
  List.zipWith (fun e g => ⟨e.2, e.1, g⟩) l
    (threaded (Blueprint.layOut layout .topSection []) p
      (l.map fun e => Blueprint.ofSection e.1)).1

def FormTree.parts (layout : Layout) (t : Template) (registry : Registry) : List Part :=
  List.zipWith (fun e g => ⟨e.2, e.1, g⟩) (t.shown layout.step) (build layout t registry).1.groups

theorem FormTree.parts_eq (layout : Layout) (t : Template) (registry : Registry) :
    parts layout t registry = (outset registry).parts layout (t.shown layout.step) := by
  rw [parts, build, Template.blueprints_eq]
  rfl

/-! ## Groups and their sections -/

section

variable (layout : Layout) (scope : Scope)

theorem flatMap_origins_eq {subsections : List Blueprint} {key caption : String} {fields : List Field}
    (below : ∀ (index : Nat) (p : Progress), (Blueprint.listOrigins subsections
      (Blueprint.layOutList layout (Blueprint.instanceScope scope key index) p subsections).1).map
        Origin.group =
      Group.listGroups
        (Blueprint.layOutList layout (Blueprint.instanceScope scope key index) p subsections).1)
    (p : Progress) (indices : List Nat) :
    let laid := threaded
      (Blueprint.layOutInstance layout scope key caption fields subsections) p indices
    (laid.1.flatMap fun i => Blueprint.listOrigins subsections i.children).map Origin.group =
      GroupInstance.listGroups laid.1 := by
  induction indices generalizing p with
  | nil => rfl
  | cons index indices ih =>
    have rest := ih (Blueprint.layOutInstance layout scope key caption fields subsections p index).2
    simp only [threaded_cons, List.flatMap_cons, List.map_append]
    exact congr (congrArg HAppend.hAppend (below index _)) rest

end

mutual

/-- There is one origin for each group. -/
theorem map_group_origins (layout : Layout) (kind : GroupKind) (scope : Scope) :
    ∀ (b : Blueprint) (p : Progress), (b.origins (b.layOut layout kind scope p).1).map Origin.group =
      (b.layOut layout kind scope p).1.withGroupsBelow
  | ⟨s, fields, subsections⟩, p => by
    cases hs : s.repeats? with
    | none =>
      have below := map_group_listOrigins layout scope subsections
      rw [Blueprint.layOut_of_plain layout kind scope p fields subsections hs]
      simp only [Blueprint.origins, Group.withGroupsBelow, GroupInstance.listGroups, List.flatMap_cons,
        List.flatMap_nil, List.append_nil, List.map_cons]
      exact congrArg _ (below _)
    | some spec =>
      have below (key : String) (index : Nat) :=
        map_group_listOrigins layout (Blueprint.instanceScope scope key index) subsections
      rw [Blueprint.layOut_of_settled layout kind scope p fields subsections hs]
      simp only [Blueprint.origins, Group.withGroupsBelow, List.map_cons]
      exact congrArg _ (flatMap_origins_eq layout scope (below _) _ _)

theorem map_group_listOrigins (layout : Layout) (scope : Scope) :
    ∀ (l : List Blueprint) (p : Progress),
      (Blueprint.listOrigins l (Blueprint.layOutList layout scope p l).1).map Origin.group =
        Group.listGroups (Blueprint.layOutList layout scope p l).1
  | [], p => by
    rw [Blueprint.layOutList]
    rfl
  | b :: rest, p => by
    rw [Blueprint.layOutList_cons]
    simp only [Blueprint.listOrigins, Group.listGroups, List.map_append]
    rw [map_group_origins layout .subsection scope b p, map_group_listOrigins layout scope rest]

end

/-! ## What fields give way to -/

namespace Progress

/-- What the fields give way to is among the names given. -/
def Witnesses (q : Progress) (fields : List PlacedField) : Prop :=
  ∀ f ∈ fields, ∀ name, f.GivesWayTo name → name ∈ q.controlIds

variable {opening : String} {p q r : Progress} {fields fields' : List PlacedField} {groups : List Group}

theorem Witnesses.append (h : q.Witnesses fields) (h' : r.Witnesses fields')
    (grown : Grown opening q r fields' groups) : r.Witnesses (fields ++ fields') := by
  intro f hf name gives
  rcases List.mem_append.1 hf with hf | hf
  · exact grown.controlIds_subset (h f hf name gives)
  · exact h' f hf name gives

theorem placeFields_witnesses {p : Progress} (h : p.Distinct) (scope : Scope) (fields : List Field) :
    (threaded (placeField scope) p fields).2.Witnesses (threaded (placeField scope) p fields).1 := by
  induction fields generalizing p with
  | nil => exact fun f hf => absurd hf List.not_mem_nil
  | cons f fields ih =>
    have first := placeField_grown h scope f
    have given : (placeField scope p f).2.Witnesses [(placeField scope p f).1] := by
      intro f' hf name gives
      obtain rfl := List.mem_singleton.1 hf
      exact List.mem_cons_of_mem _ (mem_of_givesWay (controlVariant_injective _) (controlVariant_ne _) gives)
    exact given.append (ih first.distinct) (placeFields_grown first.distinct scope fields)

end Progress

namespace Blueprint

variable {layout : Layout} {scope : Scope} {subsections : List Blueprint}

theorem layOutBody_witnesses {p : Progress} (h : p.Distinct) (fields : List Field)
    (below : ∀ {p : Progress}, p.Distinct → (layOutList layout scope p subsections).2.Witnesses
      (Group.listFields (layOutList layout scope p subsections).1)) :
    let body := layOutBody layout scope fields subsections p
    body.2.Witnesses (body.1.1 ++ Group.listFields body.1.2) := by
  have placed := placeFields_grown h scope fields
  exact (Progress.placeFields_witnesses h scope fields).append (below placed.distinct)
    (layOutList_grown layout scope subsections placed.distinct)

theorem layOutInstances_witnesses {key : String} (caption : String) (fields : List Field)
    (below : ∀ (index : Nat) {p : Progress}, p.Distinct →
      (layOutList layout (instanceScope scope key index) p subsections).2.Witnesses
        (Group.listFields (layOutList layout (instanceScope scope key index) p subsections).1))
    {p : Progress} (h : p.Distinct) (indices : List Nat) :
    let laid := threaded (layOutInstance layout scope key caption fields subsections) p indices
    laid.2.Witnesses (GroupInstance.listFields laid.1) := by
  induction indices generalizing p with
  | nil => exact fun f hf => absurd hf List.not_mem_nil
  | cons index indices ih =>
    have body := layOutBody_grown layout (instanceScope scope key index) fields subsections h
    exact (layOutBody_witnesses h fields (below index)).append (ih body.distinct)
      (layOutInstances_grown layout scope key caption fields subsections body.distinct indices)

mutual

theorem layOut_witnesses (layout : Layout) (kind : GroupKind) (scope : Scope) :
    ∀ (b : Blueprint) {p : Progress}, p.Distinct →
      (layOut layout kind scope p b).2.Witnesses (layOut layout kind scope p b).1.fields
  | ⟨s, fields, subsections⟩, p, h => by
    cases hs : s.repeats? with
    | none =>
      rw [layOut_of_plain layout kind scope p fields subsections hs]
      simp only [Group.fields, GroupInstance.listFields, List.append_nil]
      exact layOutBody_witnesses (h.nameGroup _) fields (layOutList_witnesses layout scope subsections)
    | some spec =>
      rw [layOut_of_settled layout kind scope p fields subsections hs]
      simp only [Group.fields]
      exact layOutInstances_witnesses _ fields
        (fun index => layOutList_witnesses layout (instanceScope scope _ index) subsections)
        (distinct_settled layout kind scope s spec h) _

theorem layOutList_witnesses (layout : Layout) (scope : Scope) :
    ∀ (l : List Blueprint) {p : Progress}, p.Distinct →
      (layOutList layout scope p l).2.Witnesses
        (Group.listFields (layOutList layout scope p l).1)
  | [], _, _ => by
    rw [layOutList]
    exact fun f hf => absurd hf List.not_mem_nil
  | b :: rest, p, h => by
    have first := layOut_grown layout .subsection scope b h
    rw [layOutList_cons]
    exact (layOut_witnesses layout .subsection scope b h).append
      (layOutList_witnesses layout scope rest first.distinct)
      (layOutList_grown layout scope rest first.distinct)

end

theorem layOutSections_witnesses (layout : Layout) {p : Progress} (h : p.Distinct) (l : List Blueprint) :
    let laid := threaded (layOut layout .topSection []) p l
    laid.2.Witnesses (Group.listFields laid.1) := by
  induction l generalizing p with
  | nil => exact fun f hf => absurd hf List.not_mem_nil
  | cons b l ih =>
    have first := layOut_grown layout .topSection [] b h
    exact (layOut_witnesses layout .topSection [] b h).append (ih first.distinct)
      (layOutSections_grown layout first.distinct l)

end Blueprint

/-- What a field of a tree gives way to is the identifier of another field of it. -/
theorem FormTree.exists_of_givesWayTo {layout : Layout} {t : Template} {registry : Registry}
    {f : PlacedField} (hf : f ∈ (build layout t registry).1.fields) {name : String}
    (gives : f.GivesWayTo name) :
    ∃ g ∈ (build layout t registry).1.fields, g.controlId = name := by
  have start : (outset registry).Distinct := ⟨List.nodup_nil, List.nodup_nil⟩
  have taken := Blueprint.layOutSections_witnesses layout start (t.blueprints layout.step) f hf name gives
  have grown := Blueprint.layOutSections_grown layout start (t.blueprints layout.step)
  rw [grown.controlIds, outset, List.append_nil, List.mem_reverse] at taken
  obtain ⟨g, hg, same⟩ := List.mem_map.1 taken
  exact ⟨g, hg, same⟩

/-! ## Laying out one section after another -/

namespace Progress

variable {layout : Layout} {p q : Progress} {l : List (Section × Nat)}

theorem parts_cons (layout : Layout) (p : Progress) (e : Section × Nat) (l : List (Section × Nat)) :
    p.parts layout (e :: l) =
      ⟨e.2, e.1, ((Blueprint.ofSection e.1).layOut layout .topSection [] p).1⟩ ::
        ((Blueprint.ofSection e.1).layOut layout .topSection [] p).2.parts layout l := rfl

theorem map_number_parts (layout : Layout) (p : Progress) (l : List (Section × Nat)) :
    (p.parts layout l).map (·.number) = l.map (·.2) := by
  induction l generalizing p with
  | nil => rfl
  | cons e l ih => rw [parts_cons, List.map_cons, ih, List.map_cons]

theorem mem_of_mem_parts {x : Part} (h : x ∈ p.parts layout l) : (x.source, x.number) ∈ l := by
  induction l generalizing p with
  | nil => exact absurd h List.not_mem_nil
  | cons e l ih =>
    rw [parts_cons] at h
    rcases List.mem_cons.1 h with rfl | h
    · exact List.mem_cons_self
    · exact List.mem_cons_of_mem _ (ih h)

theorem flatMap_fields_parts (layout : Layout) (p : Progress) (l : List (Section × Nat)) :
    (p.parts layout l).flatMap (·.group.fields) = Group.listFields
      (threaded (Blueprint.layOut layout .topSection []) p
        (l.map fun e => Blueprint.ofSection e.1)).1 := by
  induction l generalizing p with
  | nil => rfl
  | cons e l ih =>
    rw [parts_cons, List.flatMap_cons, ih]
    rfl

theorem map_group_parts (layout : Layout) (p : Progress) (l : List (Section × Nat)) :
    ((p.parts layout l).flatMap Part.origins).map Origin.group = Group.listGroups
      (threaded (Blueprint.layOut layout .topSection []) p
        (l.map fun e => Blueprint.ofSection e.1)).1 := by
  induction l generalizing p with
  | nil => rfl
  | cons e l ih =>
    rw [parts_cons, List.flatMap_cons, List.map_append, ih]
    exact congrArg (· ++ _) (map_group_origins layout .topSection [] (Blueprint.ofSection e.1) p)

/-- The groups of each section are those with an origin. -/
theorem map_group_of_mem_parts {x : Part} (h : x ∈ p.parts layout l) :
    x.origins.map Origin.group = x.group.withGroupsBelow := by
  induction l generalizing p with
  | nil => exact absurd h List.not_mem_nil
  | cons e l ih =>
    rw [parts_cons] at h
    rcases List.mem_cons.1 h with rfl | h
    · exact map_group_origins layout .topSection [] (Blueprint.ofSection e.1) p
    · exact ih h

/-- Each section that is there both times gets the same fields. -/
theorem parts_thinned {r : Remains} {outset : Registry} (h : r.Thinned outset p q)
    (distinct : p.Distinct) (step : Option String)
    (remains : ∀ x ∈ p.parts layout l, x.source.shownIn step = true →
      (∀ f ∈ x.group.fields, r.HasField f) ∧ ∀ o ∈ x.origins, r.HasGroup o)
    (leaves : ∀ x ∈ p.parts layout l, x.source.shownIn step = false →
      (∀ f ∈ x.group.fields, ¬r.fields f.controlId) ∧ ∀ g ∈ x.group.withGroupsBelow, ¬r.groups g.key) :
    ∀ y ∈ q.parts { layout with step } (l.filter fun e => e.1.shownIn step),
      ∃ x ∈ p.parts layout l, x.number = y.number ∧ x.source = y.source ∧
        x.group.fields = y.group.fields := by
  induction l generalizing p q with
  | nil => exact fun y hy => absurd hy List.not_mem_nil
  | cons e l ih =>
    have grown := Blueprint.layOut_grown layout .topSection [] (Blueprint.ofSection e.1) distinct
    rw [parts_cons] at remains leaves ⊢
    have remains' := fun x hx => remains x (List.mem_cons_of_mem _ hx)
    have leaves' := fun x hx => leaves x (List.mem_cons_of_mem _ hx)
    intro y hy
    cases shows : e.1.shownIn step with
    | false =>
      obtain ⟨absent, absent'⟩ := leaves _ List.mem_cons_self shows
      rw [List.filter_cons_of_neg (by simp [shows])] at hy
      obtain ⟨x, hx, same⟩ := ih (h.skip grown absent absent') grown.distinct remains' leaves' y hy
      exact ⟨x, List.mem_cons_of_mem _ hx, same⟩
    | true =>
      obtain ⟨has, groups⟩ := remains _ List.mem_cons_self shows
      obtain ⟨fields, thinned⟩ := Remains.layOut_thinned layout step .topSection []
        (Blueprint.ofSection e.1) h has groups
      rw [List.filter_cons_of_pos (by exact shows), parts_cons] at hy
      rcases List.mem_cons.1 hy with rfl | hy
      · exact ⟨_, List.mem_cons_self, rfl, rfl, fields.symm⟩
      · obtain ⟨x, hx, same⟩ := ih thinned grown.distinct remains' leaves' y hy
        exact ⟨x, List.mem_cons_of_mem _ hx, same⟩

end Progress

end Formwork
