import Formwork.Proofs.Template.Bounds
import Formwork.Proofs.Template.RoundTrip

/-!
# Reading the canonical form once more

A part of a template is brought to its canonical form, and the canonical form is read as a loosely written part.
That gives the part as it was read the first time, unless a value that cannot be used stood under the first name
of a property: the first time it masks the value under another name, and the second time it is gone.
-/
namespace Formwork

/-- The canonical form of a value is read again as what the value says, unless something is masked in it, and
nothing that does not fit is read again as something that fits. -/
inductive Rereads {α : Type} (again : Json → Option α) (fits : α → Bool) (masked : Prop) :
    Option Json → Option α → Prop
  | dropped (free : ¬masked) : Rereads again fits masked none none
  | kept {w : Json} {a b : α} (reads : again w = some b) (same : b = a ↔ ¬masked)
      (tight : fits b = true → fits a = true) : Rereads again fits masked (some w) (some a)

namespace Rereads

variable {α σ : Type} {again : Json → Option α} {fits : α → Bool}

/-- An optional part. -/
theorem bind {masked : Prop} {form : Option Json} {said : Option α} (h : Rereads again fits masked form said) :
    (form.bind again = said ↔ ¬masked) ∧ ((form.bind again).all fits = true → said.all fits = true) := by
  cases h with
  | dropped free => exact ⟨iff_of_true rfl free, id⟩
  | kept reads same tight =>
    rw [Option.bind_some, reads, Option.some.injEq]
    exact ⟨same, tight⟩

/-- The items of a list: the same ones are kept the second time. -/
theorem filterMap {canonical : σ → Option Json} {loose : σ → Option α} {masked : σ → Prop} {items : List σ}
    (h : ∀ x ∈ items, Rereads again fits (masked x) (canonical x) (loose x)) :
    ((items.filterMap canonical).filterMap again = items.filterMap loose ↔ ∀ x ∈ items, ¬masked x) ∧
      (((items.filterMap canonical).filterMap again).all fits = true →
        (items.filterMap loose).all fits = true) := by
  induction items with
  | nil => simp
  | cons x items ih =>
    obtain ⟨first, rest⟩ := List.forall_mem_cons.1 h
    obtain ⟨same, tight⟩ := ih rest
    rw [List.forall_mem_cons]
    cases form : canonical x with
    | none =>
      cases said : loose x with
      | some a =>
        rw [form, said] at first
        cases first
      | none =>
        rw [form, said] at first
        cases first with
        | dropped free =>
          rw [List.filterMap_cons_none form, List.filterMap_cons_none said, and_iff_right free]
          exact ⟨same, tight⟩
    | some w =>
      cases said : loose x with
      | none =>
        rw [form, said] at first
        cases first
      | some a =>
        rw [form, said] at first
        cases first with
        | kept reads same' tight' =>
          rw [List.filterMap_cons_some form, List.filterMap_cons_some said, List.filterMap_cons_some reads,
            List.cons.injEq, same', same, List.all_cons, List.all_cons, Bool.and_eq_true, Bool.and_eq_true]
          exact ⟨Iff.rfl, And.imp tight' tight⟩

/-- Where nothing can be masked, the canonical form is read again as what the value says. -/
theorem of_stable {form : Option Json} {said : Option α}
    (h : (form = none ∧ said = none) ∨ ∃ w a, form = some w ∧ said = some a ∧ again w = some a) :
    Rereads again always False form said := by
  obtain ⟨rfl, rfl⟩ | ⟨w, a, rfl, rfl, reads⟩ := h
  · exact .dropped id
  · exact .kept reads (iff_of_true rfl id) fun _ => rfl

end Rereads

theorem Fields.get?_others {known : List String} {key : String} (h : key ∉ known) (fields : Fields) :
    Table.get? key (Fields.others known fields) = Table.get? key fields := by
  induction fields with
  | nil => rfl
  | cons e fields ih =>
    obtain ⟨k, v⟩ := e
    by_cases meant : k ∈ known
    · have other : k ≠ key := fun same => h (same ▸ meant)
      rw [Fields.others, List.filter_cons_of_neg (by simpa using meant), Table.get?, if_neg other]
      exact ih
    · rw [Fields.others, List.filter_cons_of_pos (by simpa using meant), Table.get?, Table.get?]
      split
      · rfl
      · exact ih

namespace Loose

open Canonical

/-! ## Conditions -/

def references (raw : Fields) : List Json :=
  ["fieldId", "field", "refFieldId", "dependsOn"].filterMap fun key => Table.get? key raw

end Loose

/-- The first of the values that could name the field a condition refers to is no text, and the next one is. -/
def MaskedReference (raw : Fields) : Prop :=
  ∃ first next rest, Loose.references raw = first :: next :: rest ∧
    Canonical.scalar? first = none ∧ Canonical.scalar? next ≠ none

/-- The condition is one of those that a value lists, in a list or alone. -/
inductive ListedCondition : Json → Fields → Prop
  | item {items : List Json} {members : Fields} (h : .obj members ∈ items) :
      ListedCondition (.arr items) members
  | single {members : Fields} : ListedCondition (.obj members) members

def MaskedConditions (members : Fields) : Prop :=
  (∃ v c, Table.get? "conditions" members = some v ∧ ListedCondition v c ∧ MaskedReference c) ∨
    ∃ c, Table.get? "visibility" members = some (.obj c) ∧ MaskedReference c

namespace Loose

open Canonical

theorem fieldId_condition (raw : Fields) :
    (condition raw).fieldId = (references raw).head?.bind scalar? := by
  simp only [condition, references, List.filterMap_cons, List.filterMap_nil]
  generalize Table.get? "fieldId" raw = a, Table.get? "field" raw = b, Table.get? "refFieldId" raw = c,
    Table.get? "dependsOn" raw = d
  cases a <;> cases b <;> cases c <;> cases d <;> rfl

/-- What stands under the first name with a value moves to the main one, and the values under the names after it
stay. -/
theorem get?_references (raw : Fields) :
    Table.get? "field" (conditionFields raw) =
      (Table.get? "fieldId" raw).bind (fun _ => Table.get? "field" raw) ∧
    Table.get? "refFieldId" (conditionFields raw) =
      ((Table.get? "fieldId" raw).or (Table.get? "field" raw)).bind (fun _ => Table.get? "refFieldId" raw) ∧
    Table.get? "dependsOn" (conditionFields raw) =
      (((Table.get? "fieldId" raw).or (Table.get? "field" raw)).or (Table.get? "refFieldId" raw)).bind
        (fun _ => Table.get? "dependsOn" raw) := by
  refine ⟨?_, ?_, ?_⟩
  all_goals
    simp [conditionFields, get?_supplied]
    simp [Table.has]
    generalize Table.get? "fieldId" raw = a, Table.get? "field" raw = b, Table.get? "refFieldId" raw = c,
      Table.get? "dependsOn" raw = d
    cases a <;> cases b <;> cases c <;> cases d <;> rfl

/-- The first value becomes text or is gone, and those after it stay. -/
theorem references_conditionFields (raw : Fields) :
    references (conditionFields raw) = ((references raw).head?.bind text?).toList ++ (references raw).tail := by
  obtain ⟨field, refFieldId, dependsOn⟩ := get?_references raw
  simp only [references, List.filterMap_cons, List.filterMap_nil, get?_fieldId, field, refFieldId, dependsOn]
  generalize Table.get? "fieldId" raw = a, Table.get? "field" raw = b, Table.get? "refFieldId" raw = c,
    Table.get? "dependsOn" raw = d
  cases a with
  | some a => cases b <;> cases c <;> cases d <;> cases h : text? a <;> simp [h]
  | none =>
    cases b with
    | some b => cases c <;> cases d <;> cases h : text? b <;> simp [h]
    | none =>
      cases c with
      | some c => cases d <;> cases h : text? c <;> simp [h]
      | none =>
        cases d with
        | some d => cases h : text? d <;> simp [h]
        | none => rfl

theorem fieldId_again_eq_iff (raw : Fields) :
    (condition (conditionFields raw)).fieldId = (condition raw).fieldId ↔ ¬MaskedReference raw := by
  rw [fieldId_condition, fieldId_condition, references_conditionFields]
  unfold MaskedReference
  cases references raw with
  | nil => simp
  | cons first rest =>
    have text (s : String) : scalar? (.str s) = some s := rfl
    cases said : scalar? first with
    | some s =>
      refine iff_of_true (by simp [text?, said, text]) ?_
      rintro ⟨first', next, rest', split, unknown, -⟩
      obtain ⟨rfl, -⟩ := List.cons.inj split
      rw [said] at unknown
      cases unknown
    | none =>
      cases rest with
      | nil => simp [text?, said]
      | cons next rest => simp [text?, said]

/-- A condition is read again as it was, unless its reference is masked. -/
theorem condition_again_eq_iff (raw : Fields) :
    condition (conditionFields raw) = condition raw ↔ ¬MaskedReference raw := by
  rw [← fieldId_again_eq_iff]
  refine ⟨congrArg Condition.fieldId, fun fieldId => ?_⟩
  have kind : (condition (conditionFields raw)).kind = (condition raw).kind := by
    conv => lhs; unfold condition
    simp only [get?_kind, Option.some_or, conditionKind_name]
  have combinator : (condition (conditionFields raw)).combinator = (condition raw).combinator := by
    conv => lhs; unfold condition
    simp only [get?_combinator, Option.some_or, combinator_name]
  have value : (condition (conditionFields raw)).value = (condition raw).value := by
    conv => lhs; unfold condition
    simp only [get?_value, Option.getD_some]
  generalize condition (conditionFields raw) = again, condition raw = first at fieldId kind combinator value ⊢
  obtain ⟨fieldId', kind', value', combinator'⟩ := again
  obtain rfl : fieldId' = first.fieldId := fieldId
  obtain rfl : kind' = first.kind := kind
  obtain rfl : value' = first.value := value
  obtain rfl : combinator' = first.combinator := combinator
  rfl

theorem condition_rereads (v : Json) :
    Rereads (fun w => w.fields?.map condition) always (∃ c, v = .obj c ∧ MaskedReference c) (condition? v)
      (v.fields?.map condition) := by
  cases v with
  | obj raw =>
    refine .kept rfl ?_ fun _ => rfl
    rw [condition_again_eq_iff]
    simp
  | _ => exact .dropped (by simp)

theorem conditions_again_eq_iff (part : Option Json) :
    conditions (some (.arr (conditionList part))) = conditions part ↔
      ∀ v c, part = some v → ListedCondition v c → ¬MaskedReference c := by
  match part with
  | some (.arr items) =>
    have same := (Rereads.filterMap fun v (_ : v ∈ items) => condition_rereads v).1
    simp only [conditionList, conditions, same]
    constructor
    · rintro free v c hv (⟨h⟩ | _) masked
      · obtain rfl : items = _ := by simpa using hv
        exact free _ h ⟨c, rfl, masked⟩
      · cases hv
    · rintro free v hv ⟨c, rfl, masked⟩
      exact free _ c rfl (.item hv) masked
  | some (.obj raw) =>
    have alone : conditions (some (.arr [.obj (conditionFields raw)])) = [condition (conditionFields raw)] := rfl
    have said : conditions (some (.obj raw)) = [condition raw] := rfl
    rw [conditionList, alone, said, List.singleton_inj, condition_again_eq_iff]
    constructor
    · rintro free v c hv (_ | _)
      · cases hv
      · obtain rfl : raw = c := by simpa using hv
        exact free
    · exact fun free => free _ raw rfl .single
  | none | some .null | some (.bool _) | some (.num _) | some (.str _) =>
    refine iff_of_true rfl fun v c hv listed => ?_
    cases listed <;> cases hv

theorem shortCondition_obj_erase (raw : Fields) :
    shortCondition (some (.obj (Table.erase "combinator" raw))) = shortCondition (some (.obj raw)) := by
  simp [shortCondition, condition]

theorem shortCondition_again_eq_iff (part : Option Json) :
    shortCondition (some (Canonical.shortCondition part)) = shortCondition part ↔
      ∀ c, part = some (.obj c) → ¬MaskedReference c := by
  match part with
  | some (.obj raw) =>
    have said (c : Fields) : shortCondition (some (.obj c)) =
        ⟨(condition c).kind, (condition c).fieldId, (condition c).value⟩ := rfl
    have same := condition_again_eq_iff raw
    rw [Canonical.shortCondition, shortCondition_obj_erase, said, said]
    constructor
    · intro again c hc
      obtain rfl : raw = c := by simpa using hc
      exact (fieldId_again_eq_iff raw).1 (ShortCondition.mk.inj again).2.1
    · intro free
      rw [same.2 (free raw rfl)]
  | none | some .null | some (.bool _) | some (.num _) | some (.str _) | some (.arr _) =>
    refine iff_of_true ?_ fun c hc => by cases hc
    rfl

/-- The conditions of a field or section are read again as they were, unless some reference is masked. -/
theorem conditions_again_iff (raw : Fields) :
    (conditions (some (.arr (conditionList (Table.get? "conditions" raw)))) =
        conditions (Table.get? "conditions" raw) ∧
      shortCondition (some (Canonical.shortCondition (Table.get? "visibility" raw))) =
        shortCondition (Table.get? "visibility" raw)) ↔ ¬MaskedConditions raw := by
  rw [conditions_again_eq_iff, shortCondition_again_eq_iff, MaskedConditions, not_or]
  simp only [not_exists, not_and]

/-! ## Texts and lookups -/

theorem texts_again (part : Option Json) : texts (some (.arr (textList part))) = texts part := by
  match part with
  | some (.arr items) =>
    have stable (v : Json) : Rereads scalar? always False (text? v) (scalar? v) := by
      refine .of_stable ?_
      cases said : scalar? v with
      | none => exact .inl ⟨by rw [text?, said]; rfl, rfl⟩
      | some s => exact .inr ⟨.str s, s, by rw [text?, said]; rfl, rfl, rfl⟩
    exact (Rereads.filterMap fun v (_ : v ∈ items) => stable v).1.2 fun _ _ => id
  | some (.str s) => rfl
  | none | some .null | some (.bool _) | some (.num _) | some (.obj _) => rfl

theorem fillPair_rereads (v : Json) : Rereads fillPair? always False (Canonical.fillPair? v) (fillPair? v) := by
  refine .of_stable ?_
  cases v with
  | obj raw =>
    cases target : (Table.get? "target" raw).bind scalar? with
    | none => exact .inl (by simp [Canonical.fillPair?, fillPair?, Table.has, bind_text?, target])
    | some t =>
      cases source : (Table.get? "source" raw).bind scalar? with
      | none => exact .inl (by simp [Canonical.fillPair?, fillPair?, Table.has, bind_text?, target, source])
      | some s =>
        refine .inr ⟨.obj (Fields.recast text? "source" (Fields.recast text? "target" raw)), ⟨t, s⟩, ?_, ?_, ?_⟩
        · simp [Canonical.fillPair?, Table.has, bind_text?, target, source]
        · simp [fillPair?, target, source]
        · simp [fillPair?, bind_text?, target, source, scalar?]
  | _ => exact .inl ⟨rfl, rfl⟩

theorem fillPairs_again (part : Option Json) :
    fillPairs (some (.arr (Canonical.fillPairs part))) = fillPairs part := by
  match part with
  | some (.arr items) =>
    exact (Rereads.filterMap fun v (_ : v ∈ items) => fillPair_rereads v).1.2 fun _ _ => id
  | some (.obj members) =>
    have stable (e : String × Json) : Rereads fillPair? always False
        ((scalar? e.2).map fun source => Json.object [("target", .str e.1), ("source", .str source)])
        ((scalar? e.2).map fun source => ⟨e.1, source⟩) := by
      refine .of_stable ?_
      cases scalar? e.2 with
      | none => exact .inl ⟨rfl, rfl⟩
      | some s => exact .inr ⟨_, _, rfl, rfl, by simp [Json.object, fillPair?, Table.ofPairs, scalar?]⟩
    exact (Rereads.filterMap fun e (_ : e ∈ members) => stable e).1.2 fun _ _ => id
  | none | some .null | some (.bool _) | some (.num _) | some (.str _) => rfl

theorem natural?_again {part : Option Json} (format : ∀ v ∈ part, v.InFormat) :
    (part.bind count?).bind natural? = part.bind natural? := by
  cases part with
  | none => rfl
  | some v =>
    rw [Option.bind_some, Option.bind_some, count?_eq]
    cases read : natural? v with
    | none => rfl
    | some n => exact counts_of_natural? (format v rfl) read

theorem scalar?_again (part : Option Json) : (part.bind text?).bind scalar? = part.bind scalar? := by
  rw [bind_text?]
  cases part.bind scalar? <;> rfl

theorem truth?_again (part : Option Json) : (part.bind flag?).bind truth? = part.bind truth? := by
  cases part with
  | none => rfl
  | some v =>
    have form : flag? v = (truth? v).map .bool := by cases v <;> rfl
    rw [Option.bind_some, Option.bind_some, form]
    cases truth? v <;> rfl

theorem binary64?_again (part : Option Json) :
    (part.bind number?).bind binary64? = part.bind binary64? := by
  cases part with
  | none => rfl
  | some v =>
    rw [Option.bind_some, Option.bind_some, number?]
    cases binary64? v <;> rfl

theorem lookup_again {raw fields : Fields} (format : Json.MembersInFormat raw)
    (form : Canonical.lookup? (.obj raw) = some (.obj fields)) : lookup fields = lookup raw := by
  obtain ⟨fields', form', entity, method, valuePath, displayPaths, fill, limit⟩ := exists_lookup raw
  obtain rfl : fields' = fields := by
    injection Option.some.inj (form'.symm.trans form)
  simp only [lookup, entity, method, valuePath, displayPaths, fill, limit, scalar?_again, texts_again,
    fillPairs_again, natural?_again (inFormat_get? format)]

end Loose

/-! ## Repetitions -/

/-- The main name for the count to begin with has a value that is no count, and the other name has a value. -/
def MaskedCount (spec : Fields) : Prop :=
  (∃ v, Table.get? "defaultCount" spec = some v ∧ Loose.natural? v = none) ∧ Table.has "default" spec = true

namespace Loose

open Canonical

theorem get?_default {raw fields : Fields} (extra : Fields.others RepeatSpec.properties fields =
      Fields.others RepeatSpec.properties (Fields.adopt "default" "defaultCount" raw)) :
    Table.get? "default" fields = (Table.get? "defaultCount" raw).bind fun _ => Table.get? "default" raw := by
  have kept := congrArg (Table.get? "default") extra
  rw [Fields.get?_others (by decide), Fields.get?_others (by decide)] at kept
  rw [kept]
  cases own : Table.get? "defaultCount" raw <;> simp [own, Table.has]

/-- The count to begin with is read again as it was, and so are the members without a meaning, unless it is
masked: then a value under the other name takes its place, and is missing among those members. -/
theorem count_again_iff {raw fields : Fields} (format : Json.MembersInFormat raw)
    (count : Table.get? "defaultCount" fields =
      ((Table.get? "defaultCount" raw).or (Table.get? "default" raw)).bind count?)
    (extra : Fields.others RepeatSpec.properties fields =
      Fields.others RepeatSpec.properties (Fields.adopt "default" "defaultCount" raw)) :
    (((Table.get? "defaultCount" fields).or (Table.get? "default" fields)).bind natural? =
        ((Table.get? "defaultCount" raw).or (Table.get? "default" raw)).bind natural? ∧
      Fields.others RepeatSpec.properties (Fields.adopt "default" "defaultCount" fields) =
        Fields.others RepeatSpec.properties (Fields.adopt "default" "defaultCount" raw)) ↔
      ¬MaskedCount raw := by
  have other := get?_default extra
  have listed (key : String) (h : key ∉ RepeatSpec.properties) :
      Table.get? key (Fields.others RepeatSpec.properties fields) = Table.get? key fields :=
    Fields.get?_others h fields
  rw [← extra, Fields.others_adopt (by decide), MaskedCount]
  cases own : Table.get? "defaultCount" raw with
  | none =>
    rw [own] at count other
    rw [Option.none_or] at count
    rw [count, other, Option.bind_none, Option.or_none, Option.none_or, natural?_again (inFormat_get? format)]
    refine iff_of_true ⟨rfl, ?_⟩ (by simp)
    split
    · rfl
    · exact Table.erase_of_get?_none ((listed _ (by decide)).trans other)
  | some v =>
    rw [own] at count other
    rw [Option.some_or, Option.bind_some] at count
    rw [Option.bind_some] at other
    cases read : natural? v with
    | some n =>
      rw [count?_eq, read, Option.map_some] at count
      have again : natural? (Json.ofNat n) = some n :=
        counts_of_natural? (inFormat_get? format v own) read
      refine iff_of_true ⟨?_, ?_⟩ (by simp [read])
      · simp [count, again, read]
      · rw [Table.has, count]
        rfl
    | none =>
      rw [count?_eq, read, Option.map_none] at count
      rw [count, other, Table.has, count, Table.has]
      cases older : Table.get? "default" raw with
      | none =>
        refine iff_of_true ⟨by simp [read], ?_⟩ (by simp)
        exact Table.erase_of_get?_none ((listed _ (by decide)).trans (other.trans older))
      | some w =>
        refine iff_of_false ?_ (by simp [read])
        rintro ⟨-, same⟩
        have gone := congrArg (Table.get? "default") same
        simp [listed _ (by decide : "default" ∉ RepeatSpec.properties), other, older] at gone

theorem repetition_rereads (v : Json) (format : v.InFormat) :
    Rereads repetition? RepeatSpec.fits (∃ spec, v = .obj spec ∧ MaskedCount spec) (repeat? v)
      (repetition? v) := by
  cases v with
  | bool b =>
    refine .kept (b := ⟨b, none, none, none, none, []⟩) rfl (iff_of_true rfl ?_) id
    rintro ⟨spec, form, -⟩
    cases form
  | obj raw =>
    obtain ⟨fields, form, enabled, min, max, defaultCount, label, extra⟩ := exists_repetition raw
    have count := count_again_iff format defaultCount extra
    have counts (key : String) : ((Table.get? key raw).bind count?).bind natural? =
        (Table.get? key raw).bind natural? := natural?_again (inFormat_get? format)
    have masked : (∃ spec, Json.obj raw = .obj spec ∧ MaskedCount spec) ↔ MaskedCount raw := by simp
    rw [form]
    refine .kept rfl ?_ ?_
    · rw [masked, ← count]
      simp only [enabled, min, max, label, truth?_again, scalar?_again, counts, RepeatSpec.mk.injEq,
        true_and]
    · simp only [RepeatSpec.fits, min, max, counts, Bool.and_eq_true]
      refine And.imp_right fun fits => ?_
      cases own : Table.get? "defaultCount" raw with
      | none =>
        have free : ¬MaskedCount raw := by simp [MaskedCount, own]
        rwa [(count.2 free).1, own] at fits
      | some v =>
        cases read : natural? v with
        | none => simp [read]
        | some n =>
          have free : ¬MaskedCount raw := by simp [MaskedCount, own, read]
          rwa [(count.2 free).1, own] at fits
  | _ =>
    refine .dropped ?_
    rintro ⟨spec, form, -⟩
    cases form

end Loose

/-! ## Fields -/

def MaskedSource (members : Fields) : Prop :=
  (∃ v, Table.get? "dataSource" members = some v ∧ Loose.filledText? v = none) ∧
    (Table.get? "dataSourceName" members).bind Loose.filledText? ≠ none

def MaskedField (members : Fields) : Prop := MaskedSource members ∨ MaskedConditions members

namespace Loose

open Canonical

theorem filledText?_again (v : Json) : (Canonical.filledText? v).bind filledText? = filledText? v := by
  unfold Canonical.filledText? filledText?
  cases scalar? v with
  | none => rfl
  | some s =>
    by_cases blank : Text.isBlankText s <;> simp [blank, scalar?]

theorem source_again_iff (raw : Fields) :
    ((((Table.get? "dataSource" raw).or (Table.get? "dataSourceName" raw)).bind Canonical.filledText?).or
        (Table.get? "dataSourceName" raw)).bind filledText? =
      ((Table.get? "dataSource" raw).or (Table.get? "dataSourceName" raw)).bind filledText? ↔
        ¬MaskedSource raw := by
  have form (v : Json) : Canonical.filledText? v = none ↔ filledText? v = none := by
    unfold Canonical.filledText? filledText?
    cases scalar? v with
    | none => exact iff_of_true rfl rfl
    | some s => by_cases blank : Text.isBlankText s <;> simp [blank]
  unfold MaskedSource
  have used (part other : Option Json) (w : Json) (h : part.bind Canonical.filledText? = some w) :
      ((part.bind Canonical.filledText?).or other).bind filledText? = part.bind filledText? := by
    obtain ⟨v, rfl, said⟩ := Option.bind_eq_some_iff.1 h
    rw [h, Option.some_or, ← h, Option.bind_some, Option.bind_some, filledText?_again]
  cases own : Table.get? "dataSource" raw with
  | none =>
    refine iff_of_true ?_ (by simp)
    rw [Option.none_or]
    cases read : (Table.get? "dataSourceName" raw).bind Canonical.filledText? with
    | some w => rw [← used _ (Table.get? "dataSourceName" raw) w read, read]
    | none => rw [Option.none_or]
  | some v =>
    rw [Option.some_or]
    cases read : filledText? v with
    | none => simp [(form v).2 read, read]
    | some s =>
      refine iff_of_true ?_ (by simp [read])
      obtain ⟨w, said⟩ := Option.ne_none_iff_exists'.1 fun none => by simp [(form v).1 none] at read
      exact used (some v) _ w said

theorem role?_again (part : Option Json) : (part.bind Canonical.role?).bind role? = part.bind role? := by
  cases part with
  | none => rfl
  | some v =>
    rw [Option.bind_some, Option.bind_some]
    unfold Canonical.role? role?
    cases scalar? v with
    | none => rfl
    | some s =>
      simp only [Option.bind_some]
      split
      · decide
      · rfl

theorem items?_again (part : Option Json) :
    (part.bind list?).bind Json.items? = part.bind Json.items? := by
  cases part with
  | none => rfl
  | some v => cases v <;> rfl

theorem lookup?_again {part : Option Json} (format : ∀ v ∈ part, v.InFormat) :
    (part.bind Canonical.lookup?).bind (fun v => v.fields?.map lookup) =
      part.bind fun v => v.fields?.map lookup := by
  cases part with
  | none => rfl
  | some v =>
    cases v with
    | obj raw =>
      obtain ⟨fields, form, -⟩ := exists_lookup raw
      rw [Option.bind_some, form]
      exact congrArg some (lookup_again (format _ rfl) form)
    | _ => rfl

/-- A field is read again as it was, unless something is masked in it. -/
theorem field_again_eq_iff {id : String} {raw fields : Fields} (format : Json.MembersInFormat raw)
    (own : Table.get? "id" fields = some (.str id))
    (other : ∀ key, key ≠ "id" → key ≠ "fieldId" → Table.get? key fields = Table.get? key raw)
    (extra : Fields.others Field.properties fields = (field id raw).extra) :
    field id (fieldFields fields) = field id raw ↔ ¬MaskedField raw := by
  obtain ⟨id', kind, name, required, dataSource, options, conditions', visibility, lookup', defaultValue,
    isEnabled, order, role, maxOptions, extra'⟩ := get?_fieldFields own
  have meaningless (key : String) (h : key ∉ Field.properties) :
      Table.get? key (fieldFields fields) = Table.get? key fields := by
    rw [← Fields.get?_others h, extra', Fields.get?_others h]
  have counts : ((Table.get? "maxOptions" raw).bind count?).bind natural? =
      (Table.get? "maxOptions" raw).bind natural? := natural?_again (inFormat_get? format)
  have lookups : ((Table.get? "lookup" raw).bind Canonical.lookup?).bind (fun v => v.fields?.map lookup) =
      (Table.get? "lookup" raw).bind fun v => v.fields?.map lookup := lookup?_again (inFormat_get? format)
  have default : ((Table.get? "defaultValue" raw).or (Table.get? "default" raw)).or (Table.get? "default" raw) =
      (Table.get? "defaultValue" raw).or (Table.get? "default" raw) := by
    cases Table.get? "defaultValue" raw <;> cases Table.get? "default" raw <;> rfl
  have rest : Fields.others Field.properties (Fields.adopt "fieldId" "id" (fieldFields fields)) =
      Fields.others Field.properties (Fields.adopt "fieldId" "id" raw) := by
    rw [Fields.adopt_of_get? id', extra', extra]
    rfl
  rw [MaskedField, not_or, ← source_again_iff, ← conditions_again_iff]
  simp [field, kind, name, required, dataSource, options, conditions', visibility, lookup', defaultValue,
    isEnabled, order, role, maxOptions, other, meaningless "dataSourceName" (by decide),
    meaningless "default" (by decide), fieldKind_name, scalar?, truth?_again, binary64?_again, role?_again,
    items?_again, lookups, counts, default, rest]

/-- The fields are kept that the canonical form keeps, and each of them is read again as it was, unless something
is masked in it. -/
theorem field_rereads (fallback : Option String) (v : Json) (format : v.InFormat) :
    Rereads (field? none) Field.fits
      (∃ members, v = .obj members ∧ MaskedField members ∧ (fallback = none →
        ((Table.get? "id" members).or (Table.get? "fieldId" members)).bind scalar? ≠ none))
      (Canonical.field? fallback v) (field? fallback v) := by
  cases v with
  | obj raw =>
    rcases field?_obj fallback raw with ⟨form, said⟩ | ⟨id, fields, form, said, own, other, extra⟩
    · rw [form, said]
      refine .dropped ?_
      rintro ⟨members, same, -, kept⟩
      obtain rfl : raw = members := by simpa using same
      obtain ⟨unnamed, rfl⟩ : ((Table.get? "id" raw).or (Table.get? "fieldId" raw)).bind scalar? = none ∧
          fallback = none := by simpa [field?] using said
      exact kept rfl unnamed
    · rw [form, said]
      obtain ⟨id', -, -, -, -, -, -, -, -, -, -, -, -, maxOptions, -⟩ := get?_fieldFields own
      refine .kept (b := field id (fieldFields fields)) ?_ ?_ ?_
      · simp [field?, id', scalar?]
      · rw [field_again_eq_iff format own other extra]
        refine not_congr ⟨fun masked => ⟨raw, rfl, masked, ?_⟩, ?_⟩
        · rintro rfl unnamed
          simp [field?, unnamed] at said
        · rintro ⟨members, same, masked, -⟩
          obtain rfl : raw = members := by simpa using same
          exact masked
      · have counts : ((Table.get? "maxOptions" raw).bind count?).bind natural? =
            (Table.get? "maxOptions" raw).bind natural? := natural?_again (inFormat_get? format)
        rw [field_fits, field_fits, maxOptions, other "maxOptions" (by decide) (by decide), counts]
        exact fun fits => fits
  | _ =>
    refine .dropped ?_
    rintro ⟨members, form, -⟩
    cases form

theorem fields_again (part : Option Json) (format : ∀ v ∈ part, v.InFormat) :
    (fields (some (.arr (fieldList part))) = fields part ↔
        ∀ v f, part = some v → KeptField v f → ¬MaskedField f) ∧
      ((fields (some (.arr (fieldList part)))).all Field.fits = true →
        (fields part).all Field.fits = true) := by
  match part with
  | some (.arr items) =>
    have each := Rereads.filterMap fun v (hv : v ∈ items) =>
      field_rereads none v (Json.itemsInFormat_iff.1 (format _ rfl) v hv)
    refine ⟨each.1.trans ⟨?_, ?_⟩, each.2⟩
    · rintro free v f hv (⟨h, kept⟩ | _) masked
      · obtain rfl : items = _ := by simpa using hv
        exact free _ h ⟨f, rfl, masked, fun _ => kept⟩
      · cases hv
    · rintro free v hv ⟨f, rfl, masked, kept⟩
      exact free _ f rfl (.item hv (kept rfl)) masked
  | some (.obj members) =>
    have each := Rereads.filterMap fun e (he : e ∈ members) =>
      field_rereads (some e.1) e.2 (Json.membersInFormat_iff.1 (format _ rfl) e he)
    refine ⟨each.1.trans ⟨?_, ?_⟩, each.2⟩
    · rintro free v f hv (_ | h) masked
      · cases hv
      · obtain rfl : members = _ := by simpa using hv
        exact free _ h ⟨f, rfl, masked, nofun⟩
    · rintro free ⟨name, v⟩ he ⟨f, rfl, masked, -⟩
      exact free _ f rfl (.entry he) masked
  | none | some .null | some (.bool _) | some (.num _) | some (.str _) =>
    refine ⟨iff_of_true rfl fun v f hv kept => ?_, fun fits => fits⟩
    cases kept <;> cases hv

end Loose

end Formwork
