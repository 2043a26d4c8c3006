import Formwork.Proofs.Layout.Instances
import Formwork.Proofs.Layout.Numbers

/-!
# Groups as expansions of sections

What is laid out for a section holds the whole of it: as many instances as it is to have, and in each instance
every field and every subsection once, in declared order. A group is called an expansion of a section if this is so
at every depth. The ids that are registered for a repeated section are found again in each of its instances.
-/
namespace Formwork

theorem mayPrecede_refl (a : Option Binary64) : mayPrecede a a = true := by
  cases a with
  | none => rfl
  | some a => exact decide_eq_true (Int.le_refl _)

/-- What has no order stands last. Numbers stand in ascending order, and minus zero stands before zero. -/
theorem mayPrecede_iff (a b : Option Binary64) : mayPrecede a b = true ↔
    ∀ y ∈ b, ∃ x ∈ a, x.signedUnits < y.signedUnits ∨
      x.signedUnits = y.signedUnits ∧ (y.negative = true → x.negative = true) := by
  cases b with
  | none => simp [mayPrecede]
  | some y =>
    cases a with
    | none => simp [mayPrecede]
    | some x =>
      obtain ⟨negative, units⟩ := x
      obtain ⟨negative', units'⟩ := y
      cases negative <;> cases negative' <;>
        simp [mayPrecede, Binary64.orderKey, Binary64.signedUnits] <;> omega

/-- The items, each once, in ascending order: those without an order last, those of one order as they stood
before, and those at minus zero before those at zero. -/
structure Arranges {α : Type} (order : α → Option Binary64) (items arranged : List α) : Prop where
  perm : arranged.Perm items
  ascending : arranged.Pairwise fun a b => ∀ y ∈ order b, ∃ x ∈ order a,
    x.signedUnits < y.signedUnits ∨
      x.signedUnits = y.signedUnits ∧ (y.negative = true → x.negative = true)
  stable : ∀ o, arranged.filter (fun a => order a = o) = items.filter fun a => order a = o

section

variable {α : Type} (order : α → Option Binary64)

/-- Items of one order keep their places. -/
theorem inDeclaredOrder_of_same {o : Option Binary64} {items : List α} (h : ∀ a ∈ items, order a = o) :
    inDeclaredOrder order items = items := by
  induction items with
  | nil => rfl
  | cons item items ih =>
    obtain ⟨first, rest⟩ := List.forall_mem_cons.1 h
    have step : inDeclaredOrder order (item :: items) =
        insertInOrder order item (inDeclaredOrder order items) := rfl
    rw [step, ih rest, insertInOrder_of_forall order fun other mem => ?_]
    rw [first, rest other mem]
    exact mayPrecede_refl o

theorem arranges_inDeclaredOrder (items : List α) : Arranges order items (inDeclaredOrder order items) where
  perm := inDeclaredOrder_perm order items
  ascending := (arranged_inDeclaredOrder order items).imp (mayPrecede_iff _ _).1
  stable o := by
    rw [filter_inDeclaredOrder, inDeclaredOrder_of_same order (o := o)]
    intro a ha
    simpa using (List.mem_filter.1 ha).2

end

/-- The group is the section laid out, at every depth. It is a single instance if the section does not repeat. A
section that does is registered under the key of the group, with as many instances as it had before or is to begin
with. Each instance has the fields and the subsections of the section in declared order. -/
inductive Section.Expands (layout : Layout) (outset final : Registry) : Section → Group → Prop
  | intro {s : Section} {g : Group} {fields : List Field} {subsections : List Section}
      (title : g.title = s.title)
      (plain : s.repeats? = none → g.repeatKey = none ∧ g.instances.map (·.index) = [none])
      (repeated : ∀ spec, s.repeats? = some spec →
        let entry := RepeatEntry.ofSection g.key g.kind s spec layout.fallbackMax
        g.repeatKey = some g.key ∧ final.entry? g.key = some entry ∧
          final.count? g.key = some (outset.countFor entry layout.stored) ∧
          g.instances.map (·.index) = (List.range' 1 (outset.countFor entry layout.stored)).map some)
      (arranged : Arranges Field.order s.fields fields)
      (arrangedBelow : Arranges Section.order s.subsections subsections)
      (carried : ∀ i ∈ g.instances, i.fields.map PlacedField.field = fields)
      (below : ∀ i ∈ g.instances, List.Forall₂ (Expands layout outset final) subsections i.children) :
      Expands layout outset final s g

namespace Blueprint

open Progress

theorem ofSection_eq (s : Section) : ofSection s = ⟨s, inDeclaredOrder Field.order s.fields,
    (inDeclaredOrder Section.order s.subsections).map ofSection⟩ := by
  rw [map_inDeclaredOrder Template.order_ofSection, ← Template.ofSections_eq_map]
  cases s
  rw [ofSection]

variable {layout : Layout} {outset final : Registry} {scope : Scope}

theorem map_field_placeFields (scope : Scope) (p : Progress) (fields : List Field) :
    (threaded (placeField scope) p fields).1.map PlacedField.field = fields := by
  induction fields generalizing p with
  | nil => rfl
  | cons f fields ih => exact List.cons_eq_cons.2 ⟨rfl, ih _⟩

/-- The count that is settled for a section is what the registry told at the outset. -/
theorem settled_fst (layout : Layout) (kind : GroupKind) (scope : Scope) (s : Section) (spec : RepeatSpec)
    {p : Progress} (untouched : p.Untouched outset) : (settled layout kind scope s spec p).1 =
      outset.countFor (.ofSection (p.groupName (candidate scope s)) kind s spec layout.fallbackMax)
        layout.stored :=
  Registry.countFor_congr (untouched _ (p.groupName_not_mem (candidate scope s))) layout.stored

/-- The instances of a repeated section expand what each of them is to hold. -/
theorem forall₂_instances {key : String} (caption : String) (fields : List Field) {sections : List Section}
    {subsections : List Blueprint}
    (below : ∀ (index : Nat) {p : Progress}, p.Distinct → p.Untouched outset →
      (layOutList layout (instanceScope scope key index) p subsections).2.Lasts final →
      List.Forall₂ (Section.Expands layout outset final) sections
        (layOutList layout (instanceScope scope key index) p subsections).1)
    {p : Progress} (distinct : p.Distinct) (untouched : p.Untouched outset) (indices : List Nat) :
    let laid := threaded (layOutInstance layout scope key caption fields subsections) p indices
    laid.2.Lasts final → ∀ i ∈ laid.1, i.fields.map PlacedField.field = fields ∧
      List.Forall₂ (Section.Expands layout outset final) sections i.children := by
  induction indices generalizing p with
  | nil => exact fun _ i hi => absurd hi List.not_mem_nil
  | cons index indices ih =>
    have placed := placeFields_grown distinct (instanceScope scope key index) fields
    have body := layOutBody_grown layout (instanceScope scope key index) fields subsections distinct
    have later := layOutInstances_grown layout scope key caption fields subsections body.distinct indices
    intro laid lasts i hi
    rcases List.mem_cons.1 hi with rfl | hi
    · exact ⟨map_field_placeFields _ p fields,
        below index placed.distinct (untouched.after placed) (lasts.before later)⟩
    · exact ih body.distinct (untouched.after body) lasts i hi

mutual

/-- What is laid out for a section expands it. -/
theorem expands_layOut (layout : Layout) (kind : GroupKind) (scope : Scope) :
    ∀ (b : Blueprint) {s : Section} {p : Progress}, b = ofSection s → p.Distinct → p.Untouched outset →
      (layOut layout kind scope p b).2.Lasts final →
      s.Expands layout outset final (layOut layout kind scope p b).1
  | ⟨s, fields, subsections⟩, _, p, source, distinct, untouched, lasts => by
    obtain ⟨rfl, fields_eq, subsections_eq⟩ := Blueprint.mk.inj (source.trans (ofSection_eq _))
    have arranged : Arranges Field.order s.fields fields := by
      rw [fields_eq]
      exact arranges_inDeclaredOrder Field.order s.fields
    have arrangedBelow := arranges_inDeclaredOrder Section.order s.subsections
    cases hs : s.repeats? with
    | none =>
      rw [layOut_of_plain layout kind scope p fields subsections hs] at lasts ⊢
      have placed := placeFields_grown (distinct.nameGroup (candidate scope s)) scope fields
      have below := expands_layOutList layout scope subsections subsections_eq placed.distinct
        (Untouched.after placed fun key unnamed =>
          untouched key fun named => unnamed (List.mem_cons_of_mem _ named)) lasts
      refine ⟨rfl, fun _ => ⟨rfl, rfl⟩, fun spec repeats => ?_, arranged, arrangedBelow, ?_, ?_⟩
      · rw [hs] at repeats
        cases repeats
      · exact List.forall_mem_singleton.2 (map_field_placeFields scope _ fields)
      · exact List.forall_mem_singleton.2 below
    | some spec =>
      rw [layOut_of_settled layout kind scope p fields subsections hs] at lasts ⊢
      have named := distinct_settled layout kind scope s spec distinct
      have grown := layOutInstances_grown layout scope (p.groupName (candidate scope s))
        (s.instanceLabel spec) fields subsections named
        (List.range' 1 (settled layout kind scope s spec p).1)
      obtain ⟨recorded, known⟩ := count?_of_lasts layout kind scope s spec (lasts.before grown)
      have count := settled_fst layout kind scope s spec untouched
      have instances := forall₂_instances (s.instanceLabel spec) fields
        (fun index => expands_layOutList layout (instanceScope scope _ index) subsections subsections_eq)
        named (untouched_settled layout kind scope s spec untouched) _ lasts
      refine ⟨rfl, fun plain => ?_, fun spec' repeats => ?_, arranged, arrangedBelow,
        fun i hi => (instances i hi).1, fun i hi => (instances i hi).2⟩
      · rw [hs] at plain
        cases plain
      · obtain rfl := Option.some.inj (hs.symm.trans repeats)
        refine ⟨rfl, known, recorded.trans (congrArg some count), ?_⟩
        rw [map_index_instances, count]

theorem expands_layOutList (layout : Layout) (scope : Scope) :
    ∀ (l : List Blueprint) {sections : List Section} {p : Progress}, l = sections.map ofSection →
      p.Distinct → p.Untouched outset → (layOutList layout scope p l).2.Lasts final →
      List.Forall₂ (Section.Expands layout outset final) sections (layOutList layout scope p l).1
  | [], sections, p, source, _, _, _ => by
    obtain rfl := List.map_eq_nil_iff.1 source.symm
    rw [layOutList]
    exact .nil
  | b :: rest, sections, p, source, distinct, untouched, lasts => by
    obtain ⟨s, sections, rfl, first, others⟩ := List.map_eq_cons_iff.1 source.symm
    have grown := layOut_grown layout .subsection scope b distinct
    have later := layOutList_grown layout scope rest grown.distinct
    rw [layOutList_cons] at lasts ⊢
    exact .cons (expands_layOut layout .subsection scope b first.symm distinct untouched (lasts.before later))
      (expands_layOutList layout scope rest others.symm grown.distinct (untouched.after grown) lasts)

end

/-- What is laid out for the sections at the top expands them. -/
theorem expands_layOutSections (layout : Layout) (sections : List Section) {p : Progress}
    (distinct : p.Distinct) (untouched : p.Untouched outset)
    (lasts : (threaded (layOut layout .topSection []) p (sections.map ofSection)).2.Lasts final) :
    List.Forall₂ (Section.Expands layout outset final) sections
      (threaded (layOut layout .topSection []) p (sections.map ofSection)).1 := by
  induction sections generalizing p with
  | nil => exact .nil
  | cons s sections ih =>
    have grown := layOut_grown layout .topSection [] (ofSection s) distinct
    have later := layOutSections_grown layout grown.distinct (sections.map ofSection)
    exact .cons (expands_layOut layout .topSection [] _ rfl distinct untouched (lasts.before later))
      (ih grown.distinct (untouched.after grown) lasts)

end Blueprint

end Formwork
