import Formwork.Proofs.Settling.Fading
import Formwork.Proofs.Settling.Marks

/-!
# Following all dependencies

Following a list of dependencies only makes controls fade. It leaves the readings as they are if and only
if every one of the dependencies is respected beforehand, and then it does nothing but set the marks.
-/
namespace Formwork.Refresh

variable {config : Config} {r : Refresh}

def loses (config : Config) (r : Refresh) (e : Dependency) : Bool :=
  e.losesValue config r.controls r.catalog.offers

/-- Nothing is lost by following any of the dependencies. -/
def Respects (config : Config) (edges : List Dependency) (r : Refresh) : Prop :=
  ∀ e ∈ edges, loses config r e = false

def Alike (r r' : Refresh) : Prop :=
  r'.controls.readings = r.controls.readings ∧
    ∀ id, (r'.catalog.offer? id).map Offer.stock = (r.catalog.offer? id).map Offer.stock

theorem Alike.loses_eq {r r' : Refresh} (h : Alike r r') (e : Dependency) :
    loses config r' e = loses config r e :=
  Dependency.losesValue_congr h.1 h.2 e

/-- What following one dependency does where the rule and the child are there. -/
theorem follow_of_some {e : Dependency} {rule : DependencyRule} {child : Control}
    (hrule : config.dependentRules[e.rule]? = some rule)
    (hchild : r.controls.get? e.child = some child) :
    let next := Dependent.follow rule.linkProperty (e.parentValue r.controls)
      ⟨child, r.catalog.offer? e.child, r.changed⟩
    follow config r e =
      ⟨r.controls.modify e.child fun _ => next.control,
        { r.catalog with
          offers := Table.adjust e.child
            (.narrowTo rule.linkProperty (e.parentValue r.controls)) r.catalog.offers },
        next.changed⟩ := by
  have offer := Dependent.follow_offer rule.linkProperty (e.parentValue r.controls)
    ⟨child, r.catalog.offer? e.child, r.changed⟩
  simp only [follow, hrule, hchild]
  rw [Dependency.parentValue] at offer ⊢
  rw [offer, Table.adjust]
  simp only [Catalog.offer?]
  cases Table.get? e.child r.catalog.offers <;> rfl

/-- Either the rule or the child is missing, and nothing happens, or both are there. -/
theorem follow_cases (config : Config) (r : Refresh) (e : Dependency) :
    (follow config r e = r ∧ loses config r e = false ∧
      ∀ x, Dependency.mark config r.controls x e = x) ∨
    ∃ rule child, config.dependentRules[e.rule]? = some rule ∧
      r.controls.get? e.child = some child := by
  unfold follow loses Dependency.losesValue Dependency.mark
  cases config.dependentRules[e.rule]? with
  | none => exact .inl ⟨rfl, rfl, fun _ => rfl⟩
  | some rule =>
    cases hchild : r.controls.get? e.child with
    | none =>
      have absent := ControlSet.value?_eq_none_iff.2 hchild
      left
      simp [absent]
    | some child => exact .inr ⟨rule, child, rfl, rfl⟩

theorem loses_of_some {e : Dependency} {rule : DependencyRule} {child : Control}
    (hrule : config.dependentRules[e.rule]? = some rule)
    (hchild : r.controls.get? e.child = some child) :
    loses config r e = Dependent.losesValue rule.linkProperty (e.parentValue r.controls)
      (r.catalog.offer? e.child) child.value := by
  simp only [loses, Dependency.losesValue, hrule, ControlSet.value?_of_get? hchild, Catalog.offer?]

@[simp] theorem ids_follow (config : Config) (r : Refresh) (e : Dependency) :
    (follow config r e).controls.ids = r.controls.ids := by
  rcases follow_cases config r e with ⟨same, -⟩ | ⟨rule, child, hrule, hchild⟩
  · rw [same]
  · rw [follow_of_some hrule hchild]
    simp only [ControlSet.ids_modify]

/-- Following a dependency makes no more than the child fade. -/
theorem follow_fades (distinct : r.controls.ids.Nodup) (e : Dependency) :
    r.controls.Fades (follow config r e).controls := by
  rcases follow_cases config r e with ⟨same, -⟩ | ⟨rule, child, hrule, hchild⟩
  · rw [same]
    exact .refl _
  · rw [follow_of_some hrule hchild]
    refine ControlSet.fades_map fun b hb => ?_
    by_cases hid : b.id = e.child
    · obtain rfl := ControlSet.state_eq_of_get? distinct hchild b hb hid
      have written := congrArg (Control.hold false) (Dependent.follow_unshown rule.linkProperty
        (e.parentValue r.controls) ⟨b.state, r.catalog.offer? e.child, r.changed⟩)
      simp only [hid, if_true]
      refine ⟨hid.symm ▸ rfl, rfl, ?_⟩
      split at written
      · rename_i lost
        simp only [Dependent.losesValue, Bool.and_eq_true] at lost
        exact .inr ⟨lost.1, written⟩
      · exact .inl written
    · simp only [hid, if_false]
      exact .refl b

/-- A step that takes no value keeps the readings and sets the mark. -/
theorem follow_of_not_loses (distinct : r.controls.ids.Nodup) {e : Dependency}
    (kept : loses config r e = false) :
    Alike r (follow config r e) ∧
      (follow config r e).controls.unshown =
        (Dependency.mark config r.controls (r.controls.unshown, r.catalog.offers) e).1 ∧
      (follow config r e).catalog = { r.catalog with
        offers := (Dependency.mark config r.controls (r.controls.unshown, r.catalog.offers) e).2 } := by
  rcases follow_cases config r e with ⟨same, -, unmarked⟩ | ⟨rule, child, hrule, hchild⟩
  · rw [same, unmarked]
    exact ⟨⟨rfl, fun _ => rfl⟩, rfl, rfl⟩
  · rw [loses_of_some hrule hchild] at kept
    rw [follow_of_some hrule hchild]
    have value : ControlSet.value? e.child r.controls = some child.value :=
      ControlSet.value?_of_get? hchild
    simp only [Dependency.mark, hrule, value]
    refine ⟨⟨?_, fun id => ?_⟩, ?_, trivial⟩
    · dsimp only
      refine ControlSet.readings_modify fun b hb hid => ?_
      rw [Dependent.follow_value, ControlSet.state_eq_of_get? distinct hchild b hb hid]
      simp [kept]
    · by_cases hid : id = e.child
      · simp only [Catalog.offer?, hid, Table.get?_adjust_self, Option.map_map]
        rfl
      · simp only [Catalog.offer?, Table.get?_adjust_of_ne hid]
    · rw [ControlSet.unshown_modify_const, Dependent.follow_unshown]
      simp only [kept, Bool.false_eq_true, if_false]
      exact ControlSet.modify_const_of_get? (by rwa [ControlSet.ids_unshown])
        (by rw [ControlSet.get?_unshown, hchild, Option.map_some]) _

/-- A step that takes a value changes the readings. -/
theorem not_loses_of_readings_eq {e : Dependency}
    (h : (follow config r e).controls.readings = r.controls.readings) : loses config r e = false := by
  rcases follow_cases config r e with ⟨-, kept, -⟩ | ⟨rule, child, hrule, hchild⟩
  · exact kept
  · have values := ControlSet.value?_congr h e.child
    rw [follow_of_some hrule hchild] at values
    simp only [ControlSet.value?, ControlSet.get?_modify_self, hchild, Option.map_some,
      Dependent.follow_value, Option.some.injEq] at values
    rw [loses_of_some hrule hchild, ← Bool.not_eq_true]
    intro lost
    have filled : child.value.isFilled = true := by
      simp only [Dependent.losesValue, Bool.and_eq_true] at lost
      exact lost.1
    rw [if_pos lost] at values
    rw [← values, Json.isFilled_emptied] at filled
    cases filled

/-- A step that reports no change takes no value. -/
theorem not_loses_of_unchanged {e : Dependency} (h : (follow config r e).changed = false) :
    r.changed = false ∧ loses config r e = false := by
  rcases follow_cases config r e with ⟨same, kept, -⟩ | ⟨rule, child, hrule, hchild⟩
  · exact ⟨same ▸ h, kept⟩
  · rw [follow_of_some hrule hchild] at h
    rw [loses_of_some hrule hchild]
    exact Dependent.follow_unchanged _ _ _ h

variable {edges : List Dependency}

/-- Following dependencies only makes controls fade. -/
theorem foldl_follow_fades (distinct : r.controls.ids.Nodup) :
    r.controls.Fades (edges.foldl (follow config) r).controls := by
  induction edges generalizing r with
  | nil => exact .refl _
  | cons e edges ih => exact (follow_fades distinct e).trans (ih (by rwa [ids_follow]))

/-- Where all dependencies are respected, following them keeps the readings and sets the marks. -/
theorem foldl_follow_of_respects (distinct : r.controls.ids.Nodup)
    (h : Respects config edges r) :
    let marked := edges.foldl (Dependency.mark config r.controls) (r.controls.unshown, r.catalog.offers)
    Alike r (edges.foldl (follow config) r) ∧
      (edges.foldl (follow config) r).controls.unshown = marked.1 ∧
      (edges.foldl (follow config) r).catalog = { r.catalog with offers := marked.2 } := by
  induction edges generalizing r with
  | nil => exact ⟨⟨rfl, fun _ => rfl⟩, rfl, rfl⟩
  | cons e edges ih =>
    obtain ⟨alike, controls, catalog⟩ := follow_of_not_loses distinct (h e List.mem_cons_self)
    have rest : Respects config edges (follow config r e) := by
      intro d hd
      rw [alike.loses_eq]
      exact h d (List.mem_cons_of_mem _ hd)
    obtain ⟨alike', controls', catalog'⟩ := ih (by rwa [ids_follow]) rest
    have started : ((follow config r e).controls.unshown, (follow config r e).catalog.offers) =
        Dependency.mark config r.controls (r.controls.unshown, r.catalog.offers) e := by
      rw [controls, catalog]
    rw [Dependency.mark_congr alike.1, started] at controls' catalog'
    refine ⟨⟨alike'.1.trans alike.1, fun id => (alike'.2 id).trans (alike.2 id)⟩, controls', ?_⟩
    rw [List.foldl_cons, catalog', catalog]
    rfl

/-- If the readings are the same in the end, all dependencies are respected. -/
theorem respects_of_readings_eq (distinct : r.controls.ids.Nodup)
    (h : (edges.foldl (follow config) r).controls.readings = r.controls.readings) :
    Respects config edges r := by
  induction edges generalizing r with
  | nil => exact fun _ he => absurd he List.not_mem_nil
  | cons e edges ih =>
    have distinct' : (follow config r e).controls.ids.Nodup := by rwa [ids_follow]
    have first : (follow config r e).controls.readings = r.controls.readings :=
      (follow_fades distinct e).wanes.readings_eq_of_between (foldl_follow_fades distinct').wanes h
    have kept := not_loses_of_readings_eq first
    have rest := ih distinct' (h.trans first.symm)
    intro d hd
    rcases List.mem_cons.1 hd with rfl | hd
    · exact kept
    · rw [← (follow_of_not_loses distinct kept).1.loses_eq]
      exact rest d hd

/-- If no change is reported, all dependencies are respected. -/
theorem respects_of_unchanged (distinct : r.controls.ids.Nodup)
    (h : (edges.foldl (follow config) r).changed = false) :
    r.changed = false ∧ Respects config edges r := by
  induction edges generalizing r with
  | nil => exact ⟨h, fun _ he => absurd he List.not_mem_nil⟩
  | cons e edges ih =>
    obtain ⟨quiet, rest⟩ := ih (by rwa [ids_follow]) h
    obtain ⟨quiet', kept⟩ := not_loses_of_unchanged quiet
    refine ⟨quiet', fun d hd => ?_⟩
    rcases List.mem_cons.1 hd with rfl | hd
    · exact kept
    · rw [← (follow_of_not_loses distinct kept).1.loses_eq]
      exact rest d hd

end Formwork.Refresh
