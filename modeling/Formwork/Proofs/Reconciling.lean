import Formwork.Proofs.Session.Spelling

/-!
# What bringing values into the spelling of choices does

A value that stands for a choice becomes the value of the first choice that it stands for, in a list item by
item. Exactly the controls whose values change are told of, a second time nothing changes unless there is a
list among the choices, and no condition and no dependency sees that anything has changed at all.
-/
namespace Formwork

namespace Choice

variable {choices : List Choice} {v w : Json}

/-- The choice is the first one that the value stands for. -/
def IsFirstFor (choices : List Choice) (v : Json) (c : Choice) : Prop :=
  c.value.looselyEqual v = true ∧ ∃ before after, choices = before ++ c :: after ∧
    ∀ d ∈ before, d.value.looselyEqual v = false

/-- What a value becomes: the value of the first choice that it stands for. If it stands for none, it stays
as it is. -/
inductive Becomes (choices : List Choice) (v : Json) : Json → Prop
  | chosen (c : Choice) (first : IsFirstFor choices v c) : Becomes choices v c.value
  | kept (none : ∀ c ∈ choices, c.value.looselyEqual v = false) : Becomes choices v v

theorem find?_eq_some_iff {c : Choice} :
    (choices.find? fun c => c.value.looselyEqual v) = some c ↔ IsFirstFor choices v c := by
  rw [List.find?_eq_some_iff_append, IsFirstFor]
  simp

theorem becomes_iff : Becomes choices v w ↔ exact choices v = w := by
  unfold exact
  cases found : choices.find? fun c => c.value.looselyEqual v with
  | none =>
    constructor
    · rintro (⟨c, first⟩ | -)
      · rw [find?_eq_some_iff.2 first] at found
        cases found
      · rfl
    · rintro rfl
      exact .kept (by simpa using found)
  | some c =>
    have first := find?_eq_some_iff.1 found
    constructor
    · rintro (⟨d, first'⟩ | none)
      · rw [find?_eq_some_iff.2 first'] at found
        obtain rfl := Option.some.inj found
        rfl
      · have absent := none c (List.mem_of_find?_eq_some found)
        rw [first.1] at absent
        cases absent
    · rintro rfl
      exact .chosen c first

theorem forall₂_becomes_iff {items others : List Json} :
    List.Forall₂ (Becomes choices) items others ↔ items.map (exact choices) = others := by
  have told : Becomes choices = fun v w => exact choices v = w :=
    funext fun v => funext fun w => propext becomes_iff
  rw [told, ← List.forall₂_map_left_iff (R := Eq), List.forall₂_eq_eq_eq]

end Choice

namespace Offer

variable {o : Offer} {v w : Json}

/-- What the value of a control with the offer becomes. As long as there is something to wait for it stays as
it is, and so does `null`; a list becomes the list of what its items become. -/
inductive Becomes (o : Offer) : Json → Json → Prop
  | waiting (v : Json) (waits : o.loaded = false) : Becomes o v v
  | null : Becomes o .null .null
  | list (loaded : o.loaded = true) (items others : List Json)
      (each : List.Forall₂ (Choice.Becomes o.all) items others) : Becomes o (.arr items) (.arr others)
  | single (loaded : o.loaded = true) (v w : Json) (given : v ≠ .null) (unlisted : ∀ items, v ≠ .arr items)
      (becomes : Choice.Becomes o.all v w) : Becomes o v w

theorem exactValue_of_loaded (loaded : o.loaded = true) (given : v ≠ .null) (unlisted : ∀ items, v ≠ .arr items) :
    o.exactValue v = Choice.exact o.all v := by
  unfold exactValue
  cases none : o.all with
  | nil => simp [Choice.exact]
  | cons c all =>
    rw [loaded]
    cases v with
    | null => exact absurd rfl given
    | arr items => exact absurd rfl (unlisted items)
    | _ => rfl

theorem exactValue_arr (loaded : o.loaded = true) (items : List Json) :
    o.exactValue (.arr items) = .arr (items.map (Choice.exact o.all)) := by
  unfold exactValue
  cases none : o.all with
  | nil =>
    have same : Choice.exact [] = id := rfl
    simp [same]
  | cons c all =>
    rw [loaded]
    rfl

theorem becomes_iff : o.Becomes v w ↔ o.exactValue v = w := by
  constructor
  · rintro (⟨_, waits⟩ | _ | ⟨loaded, items, others, each⟩ | ⟨loaded, _, _, given, unlisted, becomes⟩)
    · simp [exactValue, waits]
    · exact o.exactValue_emptied .null
    · rw [exactValue_arr loaded, Choice.forall₂_becomes_iff.1 each]
    · rw [exactValue_of_loaded loaded given unlisted, Choice.becomes_iff.1 becomes]
  · rintro rfl
    cases loaded : o.loaded with
    | false =>
      have same : o.exactValue v = v := by simp [exactValue, loaded]
      rw [same]
      exact .waiting v loaded
    | true =>
      have single (given : v ≠ .null) (unlisted : ∀ items, v ≠ .arr items) :
          o.Becomes v (o.exactValue v) := by
        rw [exactValue_of_loaded loaded given unlisted]
        exact .single loaded v _ given unlisted (Choice.becomes_iff.2 rfl)
      cases v with
      | null =>
        have same : o.exactValue .null = .null := o.exactValue_emptied .null
        rw [same]
        exact .null
      | arr items =>
        rw [exactValue_arr loaded]
        exact .list loaded items _ (Choice.forall₂_becomes_iff.2 rfl)
      | _ => exact single (by simp) (by simp)

end Offer

namespace Catalog

variable {c : Catalog} {controls : ControlSet} {id : String} {v : Json}

theorem spelling_cases (c : Catalog) (id : String) (v : Json) :
    (c.offer? id = none → c.spelling id v = v) ∧
      ∀ o, c.offer? id = some o → ∃ w, o.Becomes v w ∧
        (c.spelling id v = w ∨ c.spelling id v = v ∧ (w == v) = true) := by
  unfold spelling
  constructor
  · intro none
    rw [none]
  · intro o offered
    refine ⟨o.exactValue v, Offer.becomes_iff.2 rfl, ?_⟩
    simp only [offered]
    split
    · rename_i equal
      exact .inr ⟨rfl, equal⟩
    · exact .inl rfl

theorem spelling_ne_iff :
    (c.spelling id v == v) = false ↔ ∃ o, c.offer? id = some o ∧ (o.exactValue v == v) = false := by
  unfold spelling
  cases c.offer? id with
  | none => simp
  | some o =>
    cases equal : o.exactValue v == v <;> simp [equal]

/-- The controls that are told of are the ones whose values change. -/
theorem mem_respelled_iff (ascending : c.offers.Ascending) :
    id ∈ c.respelled controls ↔
      ∃ v, controls.value? id = some v ∧ (c.spelling id v == v) = false := by
  simp only [spelling_ne_iff, respelled, List.mem_filterMap]
  constructor
  · rintro ⟨⟨name, o⟩, he, told⟩
    cases value : controls.value? name with
    | none => simp [value] at told
    | some v =>
      simp only [value, Option.ite_none_left_eq_some, Option.some.injEq, Bool.not_eq_true] at told
      obtain ⟨changed, rfl⟩ := told
      exact ⟨v, value, o, (Table.get?_eq_some_iff ascending).2 he, changed⟩
  · rintro ⟨v, value, o, offered, changed⟩
    refine ⟨(id, o), Table.mem_of_get? offered, ?_⟩
    simp [value, changed]

/-- They are told of in ascending order, each of them once. -/
theorem pairwise_respelled (ascending : c.offers.Ascending) (controls : ControlSet) :
    (c.respelled controls).Pairwise (· < ·) := by
  refine List.Pairwise.filterMap _ (fun e e' before id told id' told' => ?_) ascending
  have first : e.1 = id := by
    grind
  have second : e'.1 = id' := by
    grind
  rw [← first, ← second]
  exact before

theorem get?_reconcile_of_not_mem (ascending : c.offers.Ascending) (untold : id ∉ c.respelled controls) :
    (c.reconcile controls).get? id = controls.get? id := by
  rw [ControlSet.get?, find?_reconcile, ControlSet.get?]
  cases found : controls.find? fun b => b.id = id with
  | none => rfl
  | some b =>
    obtain rfl : b.id = id := by simpa using List.find?_some found
    have value : controls.value? b.id = some b.state.value := by
      rw [ControlSet.value?, ControlSet.get?, found]
      rfl
    have spelled : c.Spelled b := by
      intro o offered
      by_contra changed
      exact untold ((mem_respelled_iff ascending).2
        ⟨_, value, spelling_ne_iff.2 ⟨o, offered, by simpa using changed⟩⟩)
    rw [Option.map_some, reconciled_of_spelled spelled]

theorem respelled_of_spelled (ascending : c.offers.Ascending) (h : ∀ b ∈ controls, c.Spelled b) :
    c.respelled controls = [] := by
  refine List.eq_nil_iff_forall_not_mem.2 fun id told => ?_
  obtain ⟨v, value, differs⟩ := (mem_respelled_iff ascending).1 told
  obtain ⟨o, offered, changed⟩ := spelling_ne_iff.1 differs
  obtain ⟨b, hb, rfl, rfl⟩ := ControlSet.exists_of_value? value
  rw [h b hb o offered] at changed
  cases changed

/-- The value of a control becomes that of the first choice that it stands for, item by item if it is a list,
and stays as it is otherwise; a value that equals what it is to become, but for the sign of a zero, stays as
it is, too. The controls that are told of are the ones whose values change, and the others are as they were.
Unless there is a list among the choices, nothing changes when this is done again. -/
theorem reconcile_exact (ascending : c.offers.Ascending) (controls : ControlSet) :
    (∀ id v, controls.value? id = some v → ∃ v', (c.reconcile controls).value? id = some v' ∧
      (c.offer? id = none → v' = v) ∧
        ∀ o, c.offer? id = some o → ∃ w, o.Becomes v w ∧ (v' = w ∨ v' = v ∧ (w == v) = true)) ∧
    (∀ id, id ∈ c.respelled controls ↔ ∃ v v', controls.value? id = some v ∧
      (c.reconcile controls).value? id = some v' ∧ (v' == v) = false) ∧
    (c.respelled controls).Pairwise (· < ·) ∧
    (∀ id, id ∉ c.respelled controls → (c.reconcile controls).get? id = controls.get? id) ∧
    (c.Flat → c.reconcile (c.reconcile controls) = c.reconcile controls ∧
      c.respelled (c.reconcile controls) = []) := by
  refine ⟨fun id v value => ?_, fun id => ?_, pairwise_respelled ascending controls,
    fun id => get?_reconcile_of_not_mem ascending, fun flat => ?_⟩
  · refine ⟨c.spelling id v, ?_, c.spelling_cases id v⟩
    rw [value?_reconcile, value, Option.map_some]
  · rw [mem_respelled_iff ascending]
    constructor
    · rintro ⟨v, value, changed⟩
      refine ⟨v, _, value, ?_, changed⟩
      rw [value?_reconcile, value, Option.map_some]
    · rintro ⟨v, v', value, value', changed⟩
      rw [value?_reconcile, value, Option.map_some] at value'
      obtain rfl := Option.some.inj value'
      exact ⟨v, value, changed⟩
  · have spelled : ∀ b ∈ c.reconcile controls, c.Spelled b := by
      intro b hb
      obtain ⟨b, -, rfl⟩ := List.mem_map.1 hb
      exact spelled_reconciled_of_flat (.refl c) (flat b.id)
    exact ⟨reconcile_of_spelled spelled, respelled_of_spelled ascending spelled⟩

/-- Two sizes to choose from, for one control and for a list of spare ones. -/
def sizes : Catalog :=
  let offer := Offer.ofChoices none [.ofScalar (.str "3"), .ofScalar (.str "4")]
  ⟨0, [], [], [("size", offer), ("spares", offer)]⟩

def measured : ControlSet :=
  [⟨"size", "size", .fresh (Json.ofNat 3) false true⟩,
    ⟨"spares", "spares", .fresh (.arr [Json.ofNat 4, .str "5"]) false true⟩]

theorem ascending_sizes : sizes.offers.Ascending := by
  simp only [sizes, Table.Ascending]
  decide

theorem flat_sizes : sizes.Flat := by
  intro id o offered choice there items list
  have entry := Table.mem_of_get? offered
  simp only [sizes, List.mem_cons, Prod.mk.injEq, List.not_mem_nil, or_false] at entry
  obtain ⟨-, rfl⟩ | ⟨-, rfl⟩ := entry <;>
    simp only [Offer.ofChoices, List.mem_cons, List.not_mem_nil, or_false] at there <;>
      obtain rfl | rfl := there <;> cases list

/-- Each size becomes the text that stands for it, and the one that is no choice is kept. -/
theorem reconcile_exact_sizes :
    sizes.offers.Ascending ∧ sizes.Flat ∧
      (∃ w, (Offer.ofChoices none [.ofScalar (.str "3"), .ofScalar (.str "4")]).Becomes
        (.arr [Json.ofNat 4, .str "5"]) w ∧ (sizes.reconcile measured).value? "spares" = some w) ∧
      (∃ v v', measured.value? "size" = some v ∧ (sizes.reconcile measured).value? "size" = some v' ∧
        (v' == v) = false) ∧
      sizes.reconcile (sizes.reconcile measured) = sizes.reconcile measured := by
  obtain ⟨becomes, told, -, -, again⟩ := reconcile_exact ascending_sizes measured
  obtain ⟨v, value, -, chosen⟩ := becomes "spares" _ rfl
  obtain ⟨w, becomes, same | ⟨-, equal⟩⟩ := chosen _ rfl
  · have changed : "size" ∈ sizes.respelled measured := by decide +kernel
    exact ⟨ascending_sizes, flat_sizes, ⟨w, becomes, value.trans (congrArg some same)⟩,
      (told "size").1 changed, (again flat_sizes).1⟩
  · rw [Offer.becomes_iff] at becomes
    subst becomes
    exact absurd equal (by decide +kernel)

/-- No condition, no dependency and no check of a value against choices sees that values were brought into
the spelling of their choices. -/
theorem reconcile_unseen (c : Catalog) (controls : ControlSet) :
    (∀ scope conditions, Condition.allHold (c.reconcile controls) scope conditions =
      Condition.allHold controls scope conditions) ∧
    (∀ id, ((c.reconcile controls).value? id).map Json.isFilled =
      (controls.value? id).map Json.isFilled) ∧
    (∀ id choices link, ((c.reconcile controls).value? id).map (Choice.narrow choices link) =
      (controls.value? id).map (Choice.narrow choices link)) ∧
    ∀ id choices, ((c.reconcile controls).value? id).map (Choice.allow choices) =
      (controls.value? id).map (Choice.allow choices) := by
  have alike := c.alike_reconcile controls
  have seen {α : Type} (f : Json → α) (same : ∀ v w : Json, v.Alike w → f v = f w) (id : String) :
      ((c.reconcile controls).value? id).map f = (controls.value? id).map f := by
    rcases alike.value? id with ⟨none, none'⟩ | ⟨v, w, value, value', alike⟩
    · rw [none, none']
    · rw [value, value', Option.map_some, Option.map_some, same v w alike]
  refine ⟨fun scope conditions => (alike.allHold scope conditions).symm,
    seen _ fun v w alike => alike.filled, fun id choices link => ?_, fun id choices => ?_⟩
  · exact seen _ (fun v w alike => alike.narrow choices link) id
  · exact seen _ (fun v w alike => alike.allow choices) id

end Catalog

end Formwork
