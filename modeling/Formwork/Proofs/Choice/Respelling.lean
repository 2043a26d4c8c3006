import Formwork.Choice.Catalog
import Formwork.Proofs.Settling.Fading
import Formwork.Proofs.Visibility.Likeness

/-!
# Values in the spelling of choices

A value that is brought into the spelling of the choice it stands for is like the value before. It may
have another shape, though, or be `false` in another spelling, so that its empty value or whether it counts
may change. Where this does not happen, a value is in its last spelling after one step, and a control may as
well fade before as after.
-/
namespace Formwork

namespace Choice

theorem sense_exact (choices : List Choice) (v : Json) : (exact choices v).sense = v.sense := by
  rw [exact]
  cases found : choices.find? fun c => c.value.looselyEqual v with
  | none => rfl
  | some c =>
    have equal := List.find?_some (p := fun c : Choice => c.value.looselyEqual v) found
    exact Json.looselyEqual_iff.1 equal

theorem exact_exact (choices : List Choice) (v : Json) :
    exact choices (exact choices v) = exact choices v := by
  have same : (fun c : Choice => c.value.looselyEqual (exact choices v)) =
      fun c => c.value.looselyEqual v := by
    funext c
    rw [Bool.eq_iff_iff, Json.looselyEqual_iff, Json.looselyEqual_iff, sense_exact]
  conv_lhs => rw [exact, same]
  unfold exact
  cases choices.find? fun c => c.value.looselyEqual v <;> rfl

end Choice

namespace Offer

variable (o : Offer) (v : Json)

theorem exactValue_emptied : o.exactValue v.emptied = v.emptied := by
  unfold exactValue
  split
  · rfl
  · cases v <;> rfl

/-- A value in the spelling of a choice is like the value before. -/
theorem alike_exactValue : v.Alike (o.exactValue v) := by
  unfold exactValue
  split
  · exact .refl v
  · split
    · exact .refl _
    · rename_i items
      refine Json.alike_arr ?_
      rw [List.map_map]
      exact List.map_congr_left fun item _ => (Choice.sense_exact o.all item).symm
    · refine Json.alike_of_looselyEqual ?_
      rw [Json.looselyEqual_iff, Choice.sense_exact]

theorem exactValue_congr {o o' : Offer} (h : o.stock = o'.stock) : o.exactValue v = o'.exactValue v := by
  obtain ⟨all, loaded⟩ := Prod.mk.inj h
  unfold exactValue
  rw [all, loaded]

/-- A choice's own spelling stays as it is, unless it is a list with items. -/
theorem exactValue_of_exact {w : Json} (again : Choice.exact o.all w = w)
    (none : ∀ items, w = .arr items → items = []) : o.exactValue w = w := by
  unfold exactValue
  split
  · rfl
  · cases w with
    | null => rfl
    | arr items =>
      rw [none items rfl]
      rfl
    | _ => exact again

theorem exactValue_cases :
    o.exactValue v = v ∨ (∃ items, v = .arr items ∧
        o.exactValue v = .arr (items.map (Choice.exact o.all))) ∨
      v.emptied = .null ∧ o.exactValue v = Choice.exact o.all v := by
  unfold exactValue
  split
  · exact .inl rfl
  · cases v with
    | null => exact .inl rfl
    | arr items => exact .inr (.inl ⟨items, rfl, rfl⟩)
    | _ => exact .inr (.inr ⟨rfl, rfl⟩)

/-- A value that keeps its shape is in its last spelling after one step. -/
theorem exactValue_exactValue (shape : v.isFilled = true → (o.exactValue v).emptied = v.emptied) :
    o.exactValue (o.exactValue v) = o.exactValue v := by
  have alike := o.alike_exactValue v
  rcases o.exactValue_cases v with same | ⟨items, rfl, same⟩ | ⟨scalar, same⟩
  · rw [same, same]
  · have again : Choice.exact o.all ∘ Choice.exact o.all = Choice.exact o.all :=
      funext (Choice.exact_exact o.all)
    rcases o.exactValue_cases (o.exactValue (.arr items)) with same' | ⟨_, list, same'⟩ | ⟨scalar, -⟩
    · exact same'
    · rw [same] at list
      rw [same', same, ← Json.arr.inj list, List.map_map, again]
    · rw [same] at scalar
      cases scalar
  · rw [same] at shape alike ⊢
    refine o.exactValue_of_exact (Choice.exact_exact o.all v) fun items list => ?_
    rw [list, scalar] at shape
    have empty : v.isFilled = false := by
      rw [← Bool.not_eq_true]
      intro filled
      cases shape filled
    have none := alike.filled
    rw [empty, list] at none
    cases items with
    | nil => rfl
    | cons item items => cases none

end Offer

namespace Catalog

variable {c d : Catalog} {b b' : BoundControl}

/-- The value of the control is in the spelling of the choices offered to it. -/
def Spelled (c : Catalog) (b : BoundControl) : Prop :=
  ∀ o, c.offer? b.id = some o → (o.exactValue b.state.value == b.state.value) = true

theorem reconciled_of_spelled (h : c.Spelled b) : c.reconciled b = b := by
  unfold reconciled
  cases found : c.offer? b.id with
  | none => rfl
  | some o => simp [h o found]

theorem reconcile_of_spelled {controls : ControlSet} (h : ∀ b ∈ controls, c.Spelled b) :
    c.reconcile controls = controls :=
  (List.map_congr_left fun b hb => reconciled_of_spelled (h b hb)).trans (List.map_id controls)

/-- A control is either in the spelling of its choices, or it is given their spelling. -/
theorem reconciled_cases (c : Catalog) (b : BoundControl) :
    c.Spelled b ∧ c.reconciled b = b ∨ ∃ o, c.offer? b.id = some o ∧
      c.reconciled b = { b with state := b.state.set (o.exactValue b.state.value) } := by
  cases found : c.offer? b.id with
  | none =>
    have spelled : c.Spelled b := by
      intro o some
      rw [found] at some
      cases some
    exact .inl ⟨spelled, reconciled_of_spelled spelled⟩
  | some o =>
    cases equal : o.exactValue b.state.value == b.state.value with
    | true =>
      have spelled : c.Spelled b := by
        intro o' found'
        obtain rfl := Option.some.inj (found.symm.trans found')
        exact equal
      exact .inl ⟨spelled, reconciled_of_spelled spelled⟩
    | false =>
      refine .inr ⟨o, rfl, ?_⟩
      simp [reconciled, found, equal]

theorem names_reconciled (c : Catalog) (b : BoundControl) :
    (c.reconciled b).id = b.id ∧ (c.reconciled b).rawKey = b.rawKey := by
  rcases c.reconciled_cases b with ⟨-, same⟩ | ⟨o, -, given⟩
  · rw [same]
    exact ⟨rfl, rfl⟩
  · rw [given]
    exact ⟨rfl, rfl⟩

theorem alike_reconciled (c : Catalog) (b : BoundControl) :
    b.state.value.Alike (c.reconciled b).state.value := by
  rcases c.reconciled_cases b with ⟨-, same⟩ | ⟨o, -, given⟩
  · rw [same]
    exact .refl _
  · rw [given]
    exact o.alike_exactValue _

/-- A set of controls and the same in their spelling look alike. -/
theorem alike_reconcile (c : Catalog) (controls : ControlSet) :
    controls.Alike (c.reconcile controls) := by
  rw [ControlSet.Alike, reconcile, List.forall₂_map_right_iff, List.forall₂_same]
  intro b _
  obtain ⟨id, rawKey⟩ := c.names_reconciled b
  exact ⟨id, rawKey, c.alike_reconciled b⟩

/-- The value in the spelling of the choices of a control. -/
def spelling (c : Catalog) (id : String) (v : Json) : Json :=
  match c.offer? id with
  | some o => if o.exactValue v == v then v else o.exactValue v
  | none => v

theorem value_reconciled (c : Catalog) (b : BoundControl) :
    (c.reconciled b).state.value = c.spelling b.id b.state.value := by
  unfold reconciled spelling
  cases c.offer? b.id with
  | none => rfl
  | some o =>
    dsimp only
    split <;> rfl

theorem find?_reconcile (c : Catalog) (controls : ControlSet) (id : String) :
    (c.reconcile controls).find? (fun b => b.id = id) =
      (controls.find? fun b => b.id = id).map c.reconciled := by
  have named : (fun b : BoundControl => decide (b.id = id)) ∘ c.reconciled =
      fun b => decide (b.id = id) := by
    funext b
    rw [Function.comp, (c.names_reconciled b).1]
  rw [reconcile, List.find?_map, named]

theorem value?_reconcile (c : Catalog) (controls : ControlSet) (id : String) :
    (c.reconcile controls).value? id = (controls.value? id).map (c.spelling id) := by
  rw [ControlSet.value?, ControlSet.get?, find?_reconcile, ControlSet.value?, ControlSet.get?]
  cases found : controls.find? fun b => b.id = id with
  | none => rfl
  | some b =>
    have named : b.id = id := by simpa using List.find?_some found
    simp only [Option.map_some, value_reconciled, named]

/-- In the spelling of the choices the value has the shape that it has now, and it counts if it counts
now. -/
structure Steady (c : Catalog) (b : BoundControl) : Prop where
  shape : b.state.value.isFilled = true →
    (c.reconciled b).state.value.emptied = b.state.value.emptied
  counts : b.state.value.isTruthy = true → (c.reconciled b).state.value.isTruthy = true

theorem Spelled.steady (h : c.Spelled b) : c.Steady b := by
  have same := reconciled_of_spelled h
  constructor
  · intro _
    rw [same]
  · intro counts
    rwa [same]

theorem spelled_of_emptied {v : Json} (h : b.state.value = v.emptied) : c.Spelled b := by
  intro o _
  rw [h, o.exactValue_emptied]
  exact Json.beq_self _

/-- A control that is steady is in its last spelling after one step. -/
theorem Steady.spelled_reconciled (h : c.Steady b) : c.Spelled (c.reconciled b) := by
  rcases c.reconciled_cases b with ⟨spelled, same⟩ | ⟨o, found, given⟩
  · rwa [same]
  · have shape := h.shape
    rw [given] at shape ⊢
    intro o' found'
    obtain rfl := Option.some.inj (found.symm.trans found')
    dsimp only [Control.set] at shape ⊢
    rw [o.exactValue_exactValue _ shape]
    exact Json.beq_self _

/-- Whatever a catalog has to offer is in the other one as well. -/
def Within (d c : Catalog) : Prop :=
  ∀ id o, d.offer? id = some o → o.loaded = true →
    ∃ o', c.offer? id = some o' ∧ o'.stock = o.stock

/-- A part of what a catalog offers leaves a control as it is or gives it the same spelling. -/
theorem reconciled_within (within : d.Within c) (b : BoundControl) :
    d.reconciled b = b ∨ d.reconciled b = c.reconciled b := by
  cases found : d.offer? b.id with
  | none => exact .inl (by rw [reconciled, found])
  | some o =>
    cases loaded : o.loaded with
    | false =>
      left
      simp [reconciled, found, Offer.exactValue, loaded]
    | true =>
      obtain ⟨o', found', stock⟩ := within b.id o found loaded
      right
      simp only [reconciled, found, found', Offer.exactValue_congr _ stock]

theorem Steady.reconciled_reconciled (h : c.Steady b) (within : d.Within c) :
    c.reconciled (d.reconciled b) = c.reconciled b := by
  rcases reconciled_within within b with same | given
  · rw [same]
  · rw [given, reconciled_of_spelled h.spelled_reconciled]

theorem Steady.reconciled (h : c.Steady b) (within : d.Within c) : c.Steady (d.reconciled b) := by
  rcases reconciled_within within b with same | given
  · rwa [same]
  · rw [given]
    exact h.spelled_reconciled.steady

/-- What is steady for all choices is so for a part of them. -/
theorem Steady.within (h : c.Steady b) (within : d.Within c) : d.Steady b := by
  rcases reconciled_within within b with same | given
  · constructor
    · intro _
      rw [same]
    · intro counts
      rwa [same]
  · constructor
    · intro filled
      rw [given]
      exact h.shape filled
    · intro counts
      rw [given]
      exact h.counts counts

/-- What is in the spelling of all choices is in that of a part of them. -/
theorem Spelled.within (h : c.Spelled b) (within : d.Within c) : d.Spelled b := by
  intro o found
  cases loaded : o.loaded with
  | false =>
    have same : o.exactValue b.state.value = b.state.value := by simp [Offer.exactValue, loaded]
    rw [same]
    exact Json.beq_self _
  | true =>
    obtain ⟨o', found', stock⟩ := within b.id o found loaded
    rw [← Offer.exactValue_congr _ stock]
    exact h o' found'

/-- The spelling of a control depends on nothing that is decided anew. -/
theorem bare_reconciled_congr (id : b'.id = b.id) (same : b'.state.bare = b.state.bare) :
    (c.reconciled b').state.bare = (c.reconciled b).state.bare := by
  have value := Control.value_eq_of_bare same
  unfold reconciled
  rw [id, value]
  cases c.offer? b.id with
  | none => exact same
  | some o =>
    dsimp only
    split
    · exact same
    · exact congrArg (Control.set _) same

/-- Emptying a control undoes its spelling, if its shape is kept. -/
theorem Steady.bare_clear (h : c.Steady b) (filled : b.state.value.isFilled = true) :
    (c.reconciled b).state.clear.bare = b.state.clear.bare := by
  rcases c.reconciled_cases b with ⟨-, same⟩ | ⟨o, -, given⟩
  · rw [same]
  · have shape := h.shape filled
    rw [given] at shape ⊢
    dsimp only [Control.set] at shape
    simp only [Control.clear, Control.set, shape]

/-- What fades of a control fades of it in its last spelling, too. -/
theorem Steady.fades (h : c.Steady b) (fades : b.Fades b') :
    c.Steady b' ∧ (c.reconciled b).Fades (c.reconciled b') := by
  obtain ⟨id, rawKey, same | ⟨filled, emptied⟩⟩ := fades
  · have bare := bare_reconciled_congr (c := c) id same
    have value := Control.value_eq_of_bare same
    have spelling := Control.value_eq_of_bare bare
    constructor
    · constructor
      · intro filled
        rw [spelling, value]
        exact h.shape (value ▸ filled)
      · intro counts
        rw [spelling]
        exact h.counts (value ▸ counts)
    · obtain ⟨same_id, same_raw⟩ := c.names_reconciled b
      obtain ⟨same_id', same_raw'⟩ := c.names_reconciled b'
      refine ⟨?_, ?_, .inl bare⟩
      · rw [same_id', id, same_id]
      · rw [same_raw', rawKey, same_raw]
  · have spelled : c.Spelled b' := spelled_of_emptied (Control.value_eq_of_bare emptied)
    refine ⟨spelled.steady, ?_⟩
    rw [reconciled_of_spelled spelled]
    obtain ⟨same_id, same_raw⟩ := c.names_reconciled b
    refine ⟨id.trans same_id.symm, rawKey.trans same_raw.symm, .inr ?_⟩
    exact ⟨(c.alike_reconciled b).filled ▸ filled, emptied.trans (h.bare_clear filled).symm⟩

/-- What is in its last spelling stays so when it fades. -/
theorem Spelled.fades (h : c.Spelled b) (fades : b.Fades b') : c.Spelled b' := by
  obtain ⟨id, -, same | ⟨-, emptied⟩⟩ := fades
  · intro o found
    rw [Control.value_eq_of_bare same]
    exact h o (id ▸ found)
  · exact spelled_of_emptied (Control.value_eq_of_bare emptied)

theorem spelled_of_fades {controls later : ControlSet} (h : ∀ b ∈ controls, c.Spelled b)
    (fades : controls.Fades later) : ∀ b ∈ later, c.Spelled b :=
  fades.forall (fun _ _ fades spelled => spelled.fades fades) h

/-- Controls that are steady are in their last spelling after one step. -/
theorem spelled_reconcile {controls : ControlSet} (steady : ∀ b ∈ controls, c.Steady b) :
    ∀ b ∈ c.reconcile controls, c.Spelled b := by
  intro b hb
  obtain ⟨before, hbefore, rfl⟩ := List.mem_map.1 hb
  exact (steady before hbefore).spelled_reconciled

end Catalog

end Formwork
