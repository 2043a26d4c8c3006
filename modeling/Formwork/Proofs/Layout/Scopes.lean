import Formwork.Proofs.Layout.Enclosed

/-!
# Scopes of fields

A field is laid out in the scope of its section, or of an instance of it, and that scope goes on where the
one of the enclosing section ends. What is added has names that begin as those in the enclosing scope do,
so all the instances that enclose a field inside an instance of a group are named by that instance.
-/
namespace Formwork

/-- Whatever is made step by step is made by one of the steps. -/
theorem exists_of_mem_threaded {α β σ : Type} {step : σ → α → β × σ} {s : σ} {l : List α} {made : β}
    (h : made ∈ (threaded step s l).1) : ∃ item ∈ l, ∃ t, made = (step t item).1 := by
  induction l generalizing s with
  | nil => exact absurd h List.not_mem_nil
  | cons item l ih =>
    rcases List.mem_cons.1 h with rfl | h
    · exact ⟨item, List.mem_cons_self, s, rfl⟩
    · obtain ⟨later, hl, t, made⟩ := ih h
      exact ⟨later, List.mem_cons_of_mem _ hl, t, made⟩

/-- The field is laid out in the scope, or further in but in instances that are named by it. -/
def PlacedField.Within (scope : Scope) (f : PlacedField) : Prop :=
  ∃ inner, f.scope = scope ++ inner ∧ ∀ frame ∈ inner, ∃ rest, frame.stem = scope.opening ++ rest

namespace Blueprint

open Progress

variable {layout : Layout} {scope : Scope} {fields : List Field} {subsections : List Blueprint}
  {p : Progress} {f : PlacedField}

theorem within_of_mem_placeFields (hf : f ∈ (threaded (placeField scope) p fields).1) :
    f.Within scope := by
  obtain ⟨field, -, q, rfl⟩ := exists_of_mem_threaded hf
  exact ⟨[], (List.append_nil scope).symm, fun frame hframe => absurd hframe List.not_mem_nil⟩

/-- What is in an instance of a group is in the scope of the group. -/
theorem within_of_within_instance {key : String} {index : Nat}
    (begins : ∃ rest, key = scope.opening ++ rest) (h : f.Within (instanceScope scope key index)) :
    f.Within scope := by
  obtain ⟨rest, rfl⟩ := begins
  obtain ⟨inner, eq, stems⟩ := h
  refine ⟨⟨scope.opening ++ rest ++ "_", index⟩ :: inner, ?_, ?_⟩
  · rw [eq, instanceScope, List.append_assoc, List.singleton_append]
  · intro frame hframe
    rcases List.mem_cons.1 hframe with rfl | hframe
    · exact ⟨rest ++ "_", String.append_assoc ..⟩
    · obtain ⟨more, stem⟩ := stems frame hframe
      rw [stem, opening_instanceScope]
      exact ⟨rest ++ "_" ++ Text.ofNat index ++ "_" ++ more, by simp only [String.append_assoc]⟩

theorem within_of_mem_body
    (below : ∀ q, ∀ f ∈ Group.listFields (layOutList layout scope q subsections).1, f.Within scope)
    (hf : f ∈ (layOutBody layout scope fields subsections p).1.1 ++
      Group.listFields (layOutBody layout scope fields subsections p).1.2) : f.Within scope := by
  rcases List.mem_append.1 hf with own | hf
  · exact within_of_mem_placeFields own
  · exact below _ f hf

/-- What is in an instance with a number is in its scope, if this holds of what is laid out below. -/
theorem within_of_mem_instance {key caption : String} {indices : List Nat} {i : GroupInstance}
    (below : ∀ index q, ∀ f ∈ Group.listFields
      (layOutList layout (instanceScope scope key index) q subsections).1,
      f.Within (instanceScope scope key index))
    (hi : i ∈ (threaded (layOutInstance layout scope key caption fields subsections) p indices).1)
    (hf : f ∈ i.allFields) : ∃ n, i.index = some n ∧ f.Within (instanceScope scope key n) := by
  obtain ⟨n, -, q, rfl⟩ := exists_of_mem_threaded hi
  exact ⟨n, rfl, within_of_mem_body (below n) hf⟩

mutual

/-- All fields of a section are in the scope that it is laid out in. -/
theorem within_layOut (layout : Layout) (kind : GroupKind) (scope : Scope) :
    ∀ (b : Blueprint) (p : Progress), ∀ f ∈ (layOut layout kind scope p b).1.fields, f.Within scope
  | ⟨s, fields, subsections⟩, p, f, hf => by
    cases hs : s.repeats? with
    | none =>
      rw [layOut_of_plain layout kind scope p fields subsections hs] at hf
      simp only [Group.fields, GroupInstance.listFields, List.append_nil] at hf
      exact within_of_mem_body (within_layOutList layout scope subsections) hf
    | some spec =>
      rw [layOut_of_settled layout kind scope p fields subsections hs] at hf
      obtain ⟨i, hi, inside⟩ := GroupInstance.exists_of_mem_listFields hf
      obtain ⟨n, -, within⟩ := within_of_mem_instance
        (fun index => within_layOutList layout (instanceScope scope _ index) subsections) hi inside
      exact within_of_within_instance (groupName_begins p scope s) within

theorem within_layOutList (layout : Layout) (scope : Scope) :
    ∀ (l : List Blueprint) (p : Progress),
      ∀ f ∈ Group.listFields (layOutList layout scope p l).1, f.Within scope
  | [], _, f, hf => by
    rw [layOutList] at hf
    exact absurd hf List.not_mem_nil
  | b :: rest, p, f, hf => by
    rw [layOutList_cons] at hf
    rcases List.mem_append.1 hf with hf | hf
    · exact within_layOut layout .subsection scope b p f hf
    · exact within_layOutList layout scope rest _ f hf

end

end Blueprint

/-- The fields in an instance of a repeated group are enclosed by it, and by instances that it names. -/
theorem Layout.Makes.within {layout : Layout} {g : Group} (h : layout.Makes g) {key : String}
    (repeats : g.repeatKey = some key) {i : GroupInstance} (hi : i ∈ g.instances) {f : PlacedField}
    (hf : f ∈ i.allFields) :
    ∃ n, i.index = some n ∧ f.Within (Blueprint.instanceScope g.scope key n) := by
  obtain ⟨kind, scope, ⟨s, fields, subsections⟩, p, -, rfl⟩ := h
  cases hs : s.repeats? with
  | none =>
    rw [Blueprint.layOut_of_plain layout kind scope p fields subsections hs] at repeats
    cases repeats
  | some spec =>
    rw [Blueprint.layOut_of_settled layout kind scope p fields subsections hs] at repeats hi ⊢
    obtain rfl := Option.some.inj repeats
    exact Blueprint.within_of_mem_instance
      (fun index => Blueprint.within_layOutList layout (Blueprint.instanceScope scope _ index) subsections)
      hi hf

end Formwork
