import Formwork.Proofs.Template.Loose

/-!
# Reading in one step and through the canonical form

Whatever a loosely written value looks like, its canonical form has the shape that reading expects, and
what is read from it is what the value says in one step. The one thing that reading checks is that the
bounds of repetitions and choices are below 32 bits: a template is refused exactly if one of them is not.
-/
namespace Formwork

/-- Reading the canonical form of a value gives what the value says in one step, as far as that fits; and
a canonical form is never `null`, which would count as absent. -/
structure Conforms {σ α : Type} (canonical : σ → Option Json) (read : Json → Option α)
    (fits : α → Bool) (loose : σ → Option α) : Prop where
  filled : ∀ v, canonical v ≠ some .null
  reads : ∀ v, (canonical v).map read = (loose v).map (Option.guard fits)

def always {α : Type} (_ : α) : Bool := true

@[simp] theorem guard_always {α : Type} (a : α) : Option.guard always a = some a := rfl

@[simp] theorem guard_option_always {α : Type} (part : Option α) :
    Option.guard (·.all always) part = some part := by
  cases part <;> rfl

@[simp] theorem guard_list_always {α : Type} (parts : List α) :
    Option.guard (·.all always) parts = some parts := by
  simp [Option.guard, always]

namespace Conforms

variable {σ α : Type} {canonical : σ → Option Json} {read : Json → Option α} {fits : α → Bool}
  {loose : σ → Option α} {key : String} {fields : Fields} {v : Option σ}

theorem cases (c : Conforms canonical read fits loose) (v : σ) :
    (canonical v = none ∧ loose v = none) ∨
      ∃ w a, canonical v = some w ∧ w ≠ .null ∧ loose v = some a ∧ read w = Option.guard fits a := by
  have filled := c.filled v
  have reads := c.reads v
  cases form : canonical v with
  | none =>
    cases said : loose v with
    | none => exact .inl ⟨rfl, rfl⟩
    | some a => simp [form, said] at reads
  | some w =>
    cases said : loose v with
    | none => simp [form, said] at reads
    | some a =>
      rw [form, said] at reads
      exact .inr ⟨w, a, rfl, fun h => filled (form.trans (congrArg some h)), rfl,
        Option.some.inj reads⟩

/-- An optional part. -/
theorem read? (c : Conforms canonical read fits loose)
    (h : Table.get? key fields = v.bind canonical) :
    Fields.read? read key fields = Option.guard (·.all fits) (v.bind loose) := by
  unfold Fields.read?
  rw [h]
  cases v with
  | none => rfl
  | some v =>
    simp only [Option.bind_some]
    rcases c.cases v with ⟨form, said⟩ | ⟨w, a, form, filled, said, reads⟩
    · rw [form, said]
      rfl
    · rw [form, said]
      cases w with
      | null => exact absurd rfl filled
      | _ => simp only [reads, Option.guard, Option.all_some]; split <;> rfl

/-- A part with a default. -/
theorem readD (c : Conforms canonical read always loose)
    (h : Table.get? key fields = v.bind canonical) (default : α) :
    Fields.readD read default key fields = some ((v.bind loose).getD default) := by
  unfold Fields.readD
  rw [h]
  cases v with
  | none => rfl
  | some v =>
    simp only [Option.bind_some]
    rcases c.cases v with ⟨form, said⟩ | ⟨w, a, form, -, said, reads⟩
    · rw [form, said]
      rfl
    · rw [form, said]
      exact reads

/-- The items of a list, those without a canonical form left out. -/
theorem mapM (c : Conforms canonical read fits loose) (items : List σ) :
    (items.filterMap canonical).mapM read =
      Option.guard (·.all fits) (items.filterMap loose) := by
  induction items with
  | nil => rfl
  | cons v items ih =>
    rcases c.cases v with ⟨form, said⟩ | ⟨w, a, form, -, said, reads⟩
    · simpa [form, said] using ih
    · rw [List.filterMap_cons_some form, List.filterMap_cons_some said, List.mapM_cons, ih, reads]
      by_cases first : fits a
      · by_cases rest : (items.filterMap loose).all fits
        · simp [Option.guard, first, rest]
        · simp [Option.guard, first, rest]
      · simp [Option.guard, first]

end Conforms

theorem ConditionKind.ofName?_name (k : ConditionKind) : ofName? k.name = some k := by
  cases k <;> decide

theorem Combinator.ofName?_name (c : Combinator) : ofName? c.name = some c := by
  cases c <;> decide

theorem FieldKind.ofName_name (k : FieldKind) : ofName k.name = k := by
  cases k <;> decide

namespace Loose

open Canonical

/-! ## Scalars -/

theorem text_conforms : Conforms text? Json.text? always scalar? where
  filled v := by
    cases h : scalar? v <;> simp [text?, h]
  reads v := by
    cases h : scalar? v <;> simp [text?, h, Json.text?]

theorem flag_conforms : Conforms flag? Json.bool? always truth? := by
  have form (v : Json) : flag? v = (truth? v).map .bool := by cases v <;> rfl
  constructor <;> intro v <;> cases h : truth? v <;> simp [form, h, Json.bool?]

theorem number_conforms : Conforms number? Json.binary64? always binary64? where
  filled v := by
    cases h : Canonical.binary64? v <;> simp [number?, h]
  reads v := by
    cases h : Canonical.binary64? v <;> simp [number?, h, Json.binary64?, Number.toBinary64]

theorem count?_eq (v : Json) : count? v = (natural? v).map Json.ofNat := by
  unfold count? natural?
  cases Canonical.binary64? v with
  | none => rfl
  | some x =>
    simp only [Option.bind_some]
    split <;> rfl

theorem natBelow?_ofNat (limit n : Nat) :
    Json.natBelow? limit (Json.ofNat n) = Option.guard (· < limit) n := by
  by_cases h : n < limit
  · have h' : (n : Int) < limit := Int.ofNat_lt.2 h
    simp [Json.natBelow?, Json.ofNat, Option.guard, h, h']
  · have h' : ¬(n : Int) < limit := fun below => h (Int.ofNat_lt.1 below)
    simp [Json.natBelow?, Json.ofNat, Option.guard, h, h']

theorem count_conforms (limit : Nat) :
    Conforms count? (Json.natBelow? limit) (· < limit) natural? where
  filled v := by
    cases h : natural? v <;> simp [count?_eq, h, Json.ofNat]
  reads v := by
    cases h : natural? v <;> simp [count?_eq, h, natBelow?_ofNat]

theorem filledText_conforms : Conforms Canonical.filledText? Json.text? always filledText? := by
  have form (v : Json) : Canonical.filledText? v = (filledText? v).map .str := by
    unfold Canonical.filledText? filledText?
    cases scalar? v with
    | none => rfl
    | some s =>
      simp only [Option.bind_some]
      split <;> rfl
  constructor <;> intro v <;> cases h : filledText? v <;> simp [form, h, Json.text?]

theorem role_conforms : Conforms Canonical.role? Field.roleOfJson? always role? := by
  have form (v : Json) : Canonical.role? v = (role? v).map FieldRole.toJson := by
    unfold Canonical.role? role?
    cases scalar? v with
    | none => rfl
    | some s =>
      simp only [Option.bind_some]
      split <;> rfl
  have read (r : FieldRole) : Field.roleOfJson? r.toJson = some r := by cases r; decide
  constructor
  · intro v
    cases h : role? v with
    | none => simp [form, h]
    | some r => cases r; simp [form, h, FieldRole.toJson]
  · intro v
    cases h : role? v <;> simp [form, h, read]

theorem list_conforms : Conforms list? Json.items? always Json.items? := by
  constructor <;> intro v <;> cases v <;> simp [list?, Json.items?]

/-! ## Conditions -/

theorem name_conditionKind (v : Option Json) :
    ((v.bind scalar?).map Canonical.conditionKind).getD "always" = (conditionKind v).name := by
  unfold conditionKind
  cases v.bind scalar? with
  | none => rfl
  | some raw =>
    simp only [Canonical.conditionKind, Option.bind_some, Option.map_some, Option.getD_some]
    repeat' split
    all_goals decide

theorem name_combinator (v : Option Json) : Canonical.combinator v = (combinator v).name := by
  unfold combinator Canonical.combinator
  repeat' split
  all_goals decide

/-- A member that is supplied where it is missing. -/
theorem get?_supplied (key other : String) (v : Json) (fields : Fields) :
    Table.get? other (if Table.has key fields then fields else Table.insert key v fields) =
      if other = key then some ((Table.get? key fields).getD v) else Table.get? other fields := by
  unfold Table.has
  cases found : Table.get? key fields with
  | none => simp
  | some w =>
    by_cases same : other = key
    · simp [same, found]
    · simp [same]

section

variable (raw : Fields)

theorem get?_fieldId : Table.get? "fieldId" (conditionFields raw) =
    ((((Table.get? "fieldId" raw).or (Table.get? "field" raw)).or (Table.get? "refFieldId" raw)).or
      (Table.get? "dependsOn" raw)).bind text? := by
  simp [conditionFields, get?_supplied]

theorem get?_kind : Table.get? "kind" (conditionFields raw) =
    some (.str (condition raw).kind.name) := by
  simp only [condition, ← name_conditionKind]
  cases written : (((Table.get? "kind" raw).or (Table.get? "operator" raw)).or
      (Table.get? "type" raw)).bind scalar? with
  | none => simp [conditionFields, get?_supplied, written]
  | some kind => simp [conditionFields, get?_supplied, written]

theorem get?_combinator : Table.get? "combinator" (conditionFields raw) =
    some (.str (condition raw).combinator.name) := by
  simp [conditionFields, get?_supplied, condition, ← name_combinator]

theorem get?_value : Table.get? "value" (conditionFields raw) = some (condition raw).value := by
  simp [conditionFields, get?_supplied, condition]

theorem ofJson?_conditionFields :
    Condition.ofJson? (.obj (conditionFields raw)) = some (condition raw) := by
  simp [Condition.ofJson?, text_conforms.read? (get?_fieldId raw), Fields.readD, get?_kind,
    get?_combinator, get?_value, Json.text?, ConditionKind.ofName?_name, Combinator.ofName?_name,
    condition]

end

theorem condition_conforms :
    Conforms condition? Condition.ofJson? always fun v => v.fields?.map condition := by
  constructor <;> intro v <;> cases v <;>
    simp [condition?, Json.fields?, ofJson?_conditionFields]

theorem listOf?_conditionList (v : Option Json) :
    Json.listOf? Condition.ofJson? (.arr (conditionList v)) = some (conditions v) := by
  match v with
  | some (.arr items) => simp [conditionList, conditions, Json.listOf?, condition_conforms.mapM]
  | some (.obj raw) => simp [conditionList, conditions, Json.listOf?, ofJson?_conditionFields]
  | none | some .null | some (.bool _) | some (.num _) | some (.str _) => rfl

theorem ofJson?_shortCondition (v : Option Json) :
    ShortCondition.ofJson? (Canonical.shortCondition v) = some (shortCondition v) := by
  match v with
  | some (.obj raw) =>
    have fieldId : Table.get? "fieldId" (Table.erase "combinator" (conditionFields raw)) = _ :=
      (Table.get?_erase_of_ne (by decide) _).trans (get?_fieldId raw)
    simp [Canonical.shortCondition, shortCondition, ShortCondition.ofJson?,
      text_conforms.read? fieldId, Fields.readD, get?_kind, get?_value, Json.text?,
      ConditionKind.ofName?_name]
    rfl
  | none | some .null | some (.bool _) | some (.num _) | some (.str _) | some (.arr _) => rfl

/-! ## Texts and lookups -/

theorem listOf?_textList (v : Option Json) :
    Json.listOf? Json.text? (.arr (textList v)) = some (texts v) := by
  match v with
  | some (.arr items) => simp [textList, texts, Json.listOf?, text_conforms.mapM]
  | some (.str s) => simp [textList, texts, Json.listOf?, Json.text?]
  | none | some .null | some (.bool _) | some (.num _) | some (.obj _) => rfl

theorem bind_text? (v : Option Json) : v.bind text? = (v.bind scalar?).map .str := by
  cases v <;> rfl

theorem fillPair_conforms : Conforms Canonical.fillPair? FillPair.ofJson? always fillPair? := by
  constructor
  · intro v
    cases v with
    | obj raw =>
      simp only [Canonical.fillPair?]
      split <;> simp
    | _ => simp [Canonical.fillPair?]
  · intro v
    cases v with
    | obj raw =>
      cases target : (Table.get? "target" raw).bind scalar? <;>
        cases source : (Table.get? "source" raw).bind scalar? <;>
        simp [Canonical.fillPair?, fillPair?, FillPair.ofJson?, Table.has, bind_text?, target, source,
          Json.text?]
    | _ => rfl

theorem fillMember_conforms :
    Conforms (fun e : String × Json => (scalar? e.2).map fun source =>
        Json.object [("target", .str e.1), ("source", .str source)])
      FillPair.ofJson? always fun e => (scalar? e.2).map fun source => ⟨e.1, source⟩ := by
  constructor <;> intro e <;> cases scalar? e.2 <;>
    simp [Json.object, FillPair.ofJson?, Table.ofPairs, Json.text?]

theorem listOf?_fillPairs (v : Option Json) :
    Json.listOf? FillPair.ofJson? (.arr (Canonical.fillPairs v)) = some (fillPairs v) := by
  match v with
  | some (.arr items) =>
    simp [Canonical.fillPairs, fillPairs, Json.listOf?, fillPair_conforms.mapM]
  | some (.obj members) =>
    simp [Canonical.fillPairs, fillPairs, Json.listOf?, fillMember_conforms.mapM]
  | none | some .null | some (.bool _) | some (.num _) | some (.str _) => rfl

theorem natural_lt (v : Json) {n : Nat} (h : natural? v = some n) : n < Nat.pow 2 64 := by
  unfold natural? at h
  obtain ⟨x, -, h⟩ := Option.bind_eq_some_iff.1 h
  split at h
  · cases h
  · have := Option.some.inj h
    have word : 0 < Nat.pow 2 64 := by decide
    omega

/-- The canonical form of a lookup and the values under its names. -/
theorem exists_lookup (raw : Fields) : ∃ fields, Canonical.lookup? (.obj raw) = some (.obj fields) ∧
    Table.get? "entity" fields = (Table.get? "entity" raw).bind text? ∧
    Table.get? "method" fields = (Table.get? "method" raw).bind text? ∧
    Table.get? "valuePath" fields = (Table.get? "valuePath" raw).bind text? ∧
    Table.get? "displayPaths" fields =
      some (.arr (textList (Table.get? "displayPaths" raw))) ∧
    Table.get? "fill" fields = some (.arr (Canonical.fillPairs (Table.get? "fill" raw))) ∧
    Table.get? "limit" fields = (Table.get? "limit" raw).bind count? :=
  ⟨_, rfl, by simp, by simp, by simp, by simp, by simp, by simp⟩

theorem ofJson?_lookup {raw fields : Fields}
    (form : Canonical.lookup? (.obj raw) = some (.obj fields)) :
    LookupSpec.ofJson? (.obj fields) = some (lookup raw) := by
  obtain ⟨fields', form', entity, method, valuePath, displayPaths, fill, limit⟩ := exists_lookup raw
  obtain rfl : fields' = fields := by
    injection Option.some.inj (form'.symm.trans form)
  have bounded : ((Table.get? "limit" raw).bind natural?).all (· < Nat.pow 2 64) = true := by
    cases read : (Table.get? "limit" raw).bind natural? with
    | none => rfl
    | some n =>
      obtain ⟨v, -, said⟩ := Option.bind_eq_some_iff.1 read
      exact decide_eq_true (natural_lt v said)
  have limited := (count_conforms (Nat.pow 2 64)).read? limit
  rw [Option.guard, if_pos bounded] at limited
  simp only [LookupSpec.ofJson?, text_conforms.read? entity, text_conforms.read? method,
    text_conforms.read? valuePath, Fields.readD, displayPaths, fill, limited, guard_option_always,
    listOf?_textList, listOf?_fillPairs]
  rfl

theorem lookup_conforms :
    Conforms Canonical.lookup? LookupSpec.ofJson? always fun v => v.fields?.map lookup := by
  constructor
  · intro v
    cases v <;> simp [Canonical.lookup?]
  · intro v
    cases v with
    | obj raw =>
      obtain ⟨fields, form, -⟩ := exists_lookup raw
      simp [form, ofJson?_lookup form, Json.fields?]
    | _ => rfl

/-! ## Repetitions -/

theorem exists_repetition (raw : Fields) : ∃ fields, repeat? (.obj raw) = some (.obj fields) ∧
    Table.get? "enabled" fields = (Table.get? "enabled" raw).bind flag? ∧
    Table.get? "min" fields = (Table.get? "min" raw).bind count? ∧
    Table.get? "max" fields = (Table.get? "max" raw).bind count? ∧
    Table.get? "defaultCount" fields =
      ((Table.get? "defaultCount" raw).or (Table.get? "default" raw)).bind count? ∧
    Table.get? "label" fields = (Table.get? "label" raw).bind text? ∧
    Fields.others RepeatSpec.properties fields =
      Fields.others RepeatSpec.properties (Fields.adopt "default" "defaultCount" raw) :=
  ⟨_, rfl, by simp, by simp, by simp, by simp, by simp, by simp [RepeatSpec.properties]⟩

theorem repetition_conforms : Conforms repeat? RepeatSpec.ofJson? RepeatSpec.fits repetition? := by
  constructor
  · intro v
    cases v <;> simp [repeat?, Json.object]
  · intro v
    cases v with
    | obj raw =>
      obtain ⟨fields, form, enabled, min, max, defaultCount, label, extra⟩ := exists_repetition raw
      have count := count_conforms boundLimit
      simp only [form, repetition?, Option.map_some, RepeatSpec.ofJson?, flag_conforms.readD enabled,
        count.read? min, count.read? max, count.read? defaultCount, text_conforms.read? label,
        guard_option_always, extra]
      cases min : ((Table.get? "min" raw).bind natural?).all (· < boundLimit) <;>
        cases max : ((Table.get? "max" raw).bind natural?).all (· < boundLimit) <;>
        cases defaultCount : (((Table.get? "defaultCount" raw).or
          (Table.get? "default" raw)).bind natural?).all (· < boundLimit) <;>
        simp [Option.guard, RepeatSpec.fits, min, max, defaultCount]
    | bool b =>
      simp [repeat?, Json.object, Table.ofPairs, Table.insert, repetition?, RepeatSpec.ofJson?,
        Fields.readD, Fields.read?, Table.get?, Json.bool?, Fields.others, RepeatSpec.properties,
        RepeatSpec.fits, Option.guard]
    | _ => rfl

/-! ## Fields -/

/-- The canonical name of a kind of field is one that reading knows. -/
theorem name_ofName_fieldKind (raw : String) :
    (FieldKind.ofName (Canonical.fieldKind raw)).name = Canonical.fieldKind raw := by
  simp only [Canonical.fieldKind]
  repeat
    refine iteInduction (motive := fun s => (FieldKind.ofName s).name = s) (fun _ => by decide)
      fun _ => ?_
  decide

theorem name_fieldKind (v : Option Json) :
    ((v.bind scalar?).map Canonical.fieldKind).getD "text" = (fieldKind v).name := by
  unfold fieldKind
  cases v.bind scalar? with
  | none => rfl
  | some raw => simp only [Option.map_some, Option.getD_some, name_ofName_fieldKind]

theorem get?_named (other : String) {id : String} {raw : Fields}
    (h : Table.get? "id" raw = some (.str id)) :
    Table.get? other (named raw) =
      if other = "name" then some (.str
        ((((Table.get? "name" raw).bind scalar?).or ((Table.get? "label" raw).bind scalar?)).getD id))
      else Table.get? other raw := by
  simp only [named, get?_supplied, Fields.get?_recast]
  have text : scalar? (.str id) = some id := rfl
  by_cases same : other = "name"
  · cases own : (Table.get? "name" raw).bind scalar? <;>
      cases label : (Table.get? "label" raw).bind scalar? <;>
      simp [same, bind_text?, own, label, h, text]
  · simp [same]

theorem others_named {known : List String} (h : "name" ∈ known) (raw : Fields) :
    Fields.others known (named raw) = Fields.others known raw := by
  simp only [named]
  split <;> simp [h]

/-- The values under the names of a field in canonical form, given its id. -/
theorem get?_fieldFields {id : String} {raw : Fields} (h : Table.get? "id" raw = some (.str id)) :
    Table.get? "id" (fieldFields raw) = some (.str id) ∧
    Table.get? "type" (fieldFields raw) = some (.str (fieldKind (Table.get? "type" raw)).name) ∧
    Table.get? "name" (fieldFields raw) = some (.str
      ((((Table.get? "name" raw).bind scalar?).or ((Table.get? "label" raw).bind scalar?)).getD id)) ∧
    Table.get? "required" (fieldFields raw) = (Table.get? "required" raw).bind flag? ∧
    Table.get? "dataSource" (fieldFields raw) =
      ((Table.get? "dataSource" raw).or (Table.get? "dataSourceName" raw)).bind
        Canonical.filledText? ∧
    Table.get? "options" (fieldFields raw) = (Table.get? "options" raw).bind list? ∧
    Table.get? "conditions" (fieldFields raw) =
      some (.arr (conditionList (Table.get? "conditions" raw))) ∧
    Table.get? "visibility" (fieldFields raw) =
      some (Canonical.shortCondition (Table.get? "visibility" raw)) ∧
    Table.get? "lookup" (fieldFields raw) = (Table.get? "lookup" raw).bind Canonical.lookup? ∧
    Table.get? "defaultValue" (fieldFields raw) =
      (Table.get? "defaultValue" raw).or (Table.get? "default" raw) ∧
    Table.get? "isEnabled" (fieldFields raw) = (Table.get? "isEnabled" raw).bind flag? ∧
    Table.get? "order" (fieldFields raw) = (Table.get? "order" raw).bind number? ∧
    Table.get? "role" (fieldFields raw) = (Table.get? "role" raw).bind Canonical.role? ∧
    Table.get? "maxOptions" (fieldFields raw) = (Table.get? "maxOptions" raw).bind count? ∧
    Fields.others Field.properties (fieldFields raw) = Fields.others Field.properties raw := by
  have other (key : String) (hne : key ≠ "name") (v : Json) :
      Table.get? key (named (Table.insert "type" v raw)) = Table.get? key (Table.insert "type" v raw) := by
    simp [get?_named, h, hne]
  refine ⟨?_, ?_, ?_, ?_, ?_, ?_, ?_, ?_, ?_, ?_, ?_, ?_, ?_, ?_, ?_⟩
  · simp [fieldFields, conditionSlots, other, h]
  · rw [← name_fieldKind]
    cases written : (Table.get? "type" raw).bind scalar? with
    | none => simp [fieldFields, conditionSlots, other, written]
    | some kind => simp [fieldFields, conditionSlots, other, written]
  · simp [fieldFields, conditionSlots, get?_named, h]
  all_goals simp [fieldFields, conditionSlots, other, others_named, Field.properties]

theorem ofJson?_fieldFields {id : String} {raw : Fields} (h : Table.get? "id" raw = some (.str id)) :
    Field.ofJson? (.obj (fieldFields raw)) = Option.guard Field.fits
      { field id raw with extra := Fields.others Field.properties raw } := by
  obtain ⟨id', kind, name, required, dataSource, options, conditions, visibility, lookup, defaultValue,
    isEnabled, order, role, maxOptions, extra⟩ := get?_fieldFields h
  have kinds : Fields.readD (fun v => v.text?.map FieldKind.ofName) .text "type" (fieldFields raw) =
      some (fieldKind (Table.get? "type" raw)) := by
    simp [Fields.readD, kind, Json.text?, FieldKind.ofName_name]
  have names : Fields.readD Json.text? "" "name" (fieldFields raw) = some (field id raw).name := by
    simp [Fields.readD, name, Json.text?, field]
  have conditions' : Fields.readD (Json.listOf? Condition.ofJson?) [] "conditions" (fieldFields raw) =
      some (Loose.conditions (Table.get? "conditions" raw)) := by
    simp only [Fields.readD, conditions, listOf?_conditionList]
  have visibility' : Fields.readD ShortCondition.ofJson? .always "visibility" (fieldFields raw) =
      some (Loose.shortCondition (Table.get? "visibility" raw)) := by
    simp only [Fields.readD, visibility, ofJson?_shortCondition]
  simp only [Field.ofJson?, id', kinds, names, flag_conforms.readD required,
    filledText_conforms.read? dataSource, list_conforms.read? options, conditions', visibility',
    lookup_conforms.read? lookup, flag_conforms.readD isEnabled, number_conforms.read? order,
    role_conforms.read? role, (count_conforms boundLimit).read? maxOptions, guard_option_always,
    defaultValue, extra]
  cases fits : ((Table.get? "maxOptions" raw).bind natural?).all (· < boundLimit) <;>
    simp [Option.guard, Field.fits, field, fits, Json.text?]

/-- A field in canonical form, given what it says and its id. -/
theorem field?_obj (fallback : Option String) (raw : Fields) :
    (Canonical.field? fallback (.obj raw) = none ∧ field? fallback (.obj raw) = none) ∨
      ∃ id fields, Canonical.field? fallback (.obj raw) = some (.obj (fieldFields fields)) ∧
        field? fallback (.obj raw) = some (field id raw) ∧ Table.get? "id" fields = some (.str id) ∧
        (∀ key, key ≠ "id" → key ≠ "fieldId" → Table.get? key fields = Table.get? key raw) ∧
        Fields.others Field.properties fields = (field id raw).extra := by
  have adopted : Table.get? "id" (Fields.recast text? "id" (Fields.adopt "fieldId" "id" raw)) =
      (((Table.get? "id" raw).or (Table.get? "fieldId" raw)).bind scalar?).map .str := by
    simp [bind_text?]
  cases own : ((Table.get? "id" raw).or (Table.get? "fieldId" raw)).bind scalar? with
  | some id =>
    rw [own] at adopted
    refine .inr ⟨id, _, ?_, ?_, adopted, ?_, ?_⟩
    · simp [Canonical.field?, Table.has, adopted]
    · simp [field?, own]
    · intro key hid hfieldId
      simp [hid, hfieldId]
    · simp [field, Field.properties]
  | none =>
    rw [own] at adopted
    cases fallback with
    | none =>
      refine .inl ⟨?_, ?_⟩
      · simp [Canonical.field?, Table.has, adopted]
      · simp [field?, own]
    | some id =>
      refine .inr ⟨id, Table.insert "id" (.str id)
        (Fields.recast text? "id" (Fields.adopt "fieldId" "id" raw)), ?_, ?_, ?_, ?_, ?_⟩
      · simp [Canonical.field?, Table.has, adopted]
      · simp [field?, own]
      · simp
      · intro key hid hfieldId
        simp [hid, hfieldId]
      · simp [field, Field.properties]

theorem field_conforms (fallback : Option String) :
    Conforms (Canonical.field? fallback) Field.ofJson? Field.fits (field? fallback) := by
  constructor
  · intro v
    cases v with
    | obj raw =>
      rcases field?_obj fallback raw with ⟨form, -⟩ | ⟨id, fields, form, -⟩ <;> simp [form]
    | _ => simp [Canonical.field?]
  · intro v
    cases v with
    | obj raw =>
      rcases field?_obj fallback raw with ⟨form, said⟩ | ⟨id, fields, form, said, own, other, extra⟩
      · rw [form, said]
        rfl
      · have same : { field id fields with extra := Fields.others Field.properties fields } =
            field id raw := by
          rw [extra]
          simp [field, other]
        rw [form, said, Option.map_some, Option.map_some, ofJson?_fieldFields own, same]
    | _ => rfl

theorem member_conforms :
    Conforms (fun e : String × Json => Canonical.field? (some e.1) e.2) Field.ofJson? Field.fits
      fun e => field? (some e.1) e.2 where
  filled e := (field_conforms (some e.1)).filled e.2
  reads e := (field_conforms (some e.1)).reads e.2

theorem listOf?_fieldList (v : Option Json) :
    Json.listOf? Field.ofJson? (.arr (fieldList v)) =
      Option.guard (·.all Field.fits) (fields v) := by
  match v with
  | some (.arr items) =>
    simp only [fieldList, fields, Json.listOf?, (field_conforms none).mapM]
  | some (.obj members) =>
    simp only [fieldList, fields, Json.listOf?, member_conforms.mapM]
  | none | some .null | some (.bool _) | some (.num _) | some (.str _) => rfl

/-! ## Sections -/

theorem get?_titled_self (fallback : Option String) (raw : Fields) :
    Table.get? "title" (titled fallback raw) =
      (((Table.get? "title" raw).bind scalar?).or fallback).map
        fun _ => .str (title fallback (Table.get? "title" raw)) := by
  have recast : Table.get? "title" (Fields.recast text? "title" raw) =
      ((Table.get? "title" raw).bind scalar?).map .str := by
    simp [bind_text?]
  cases own : (Table.get? "title" raw).bind scalar? with
  | none => cases fallback <;> simp [titled, title, recast, own]
  | some s =>
    rw [own] at recast
    by_cases blank : Text.isBlankText s <;> cases fallback <;>
      simp [titled, title, recast, own, blank, Option.filter]

theorem get?_titled {key : String} (h : key ≠ "title") (fallback : Option String) (raw : Fields) :
    Table.get? key (titled fallback raw) = Table.get? key raw := by
  cases fallback with
  | none => simp [titled, h]
  | some given =>
    simp only [titled]
    split <;> split <;> simp [h]

theorem others_titled {known : List String} (h : "title" ∈ known) (fallback : Option String)
    (raw : Fields) : Fields.others known (titled fallback raw) = Fields.others known raw := by
  cases fallback with
  | none => simp [titled, h]
  | some given =>
    simp only [titled]
    split <;> split <;> simp [h]

/-- The values under the names of a section in canonical form. -/
theorem get?_groupFields (fallback : Option String) (raw : Fields) (below : List Json) :
    Table.get? "title" (groupFields fallback raw below) =
      Table.get? "title" (titled fallback raw) ∧
    Table.get? "order" (groupFields fallback raw below) = (Table.get? "order" raw).bind number? ∧
    Table.get? "baseKey" (groupFields fallback raw below) = (Table.get? "baseKey" raw).bind text? ∧
    Table.get? "repeat" (groupFields fallback raw below) = (Table.get? "repeat" raw).bind repeat? ∧
    Table.get? "fields" (groupFields fallback raw below) =
      some (.arr (fieldList (Table.get? "fields" raw))) ∧
    Table.get? "subsections" (groupFields fallback raw below) = some (.arr below) ∧
    Table.get? "conditions" (groupFields fallback raw below) =
      some (.arr (conditionList (Table.get? "conditions" raw))) ∧
    Table.get? "visibility" (groupFields fallback raw below) =
      some (Canonical.shortCondition (Table.get? "visibility" raw)) ∧
    Table.get? "isEnabled" (groupFields fallback raw below) =
      (Table.get? "isEnabled" raw).bind flag? ∧
    Table.get? "step" (groupFields fallback raw below) = (Table.get? "step" raw).bind text? ∧
    Fields.others Section.properties (groupFields fallback raw below) =
      (sectionOf fallback raw []).extra := by
  have extra : Fields.others Section.properties (groupFields fallback raw below) =
      (sectionOf fallback raw []).extra := by
    cases found : Table.get? "subsections" raw <;>
      simp [groupFields, conditionSlots, sectionOf, Fields.others_adopt, others_titled, Table.has,
        get?_titled, Section.properties, found]
  refine ⟨?_, ?_, ?_, ?_, ?_, ?_, ?_, ?_, ?_, ?_, extra⟩
  all_goals simp [groupFields, conditionSlots, get?_titled]

/-- A section is read from its canonical form if its own bounds fit. -/
theorem ofFields?_groupFields (fallback : Option String) (raw : Fields) (forms : List Json)
    (below : List Section) :
    Section.ofFields? (groupFields fallback raw forms) below =
      Option.guard (fun s => s.repetition.all RepeatSpec.fits && s.fields.all Field.fits)
        (sectionOf fallback raw below) := by
  obtain ⟨title, order, baseKey, repetition, fields, -, conditions, visibility, isEnabled, step, extra⟩ :=
    get?_groupFields fallback raw forms
  have titles : Fields.readD Json.text? "" "title" (groupFields fallback raw forms) =
      some (sectionOf fallback raw below).title := by
    simp only [Fields.readD, title, get?_titled_self, sectionOf]
    cases given : ((Table.get? "title" raw).bind scalar?).or fallback with
    | some s => rfl
    | none =>
      obtain ⟨own, rfl⟩ := Option.or_eq_none_iff.1 given
      simp [Loose.title, own]
  have fields' : Fields.readD (Json.listOf? Field.ofJson?) [] "fields" (groupFields fallback raw forms) =
      Option.guard (·.all Field.fits) (Loose.fields (Table.get? "fields" raw)) := by
    simp only [Fields.readD, fields, listOf?_fieldList]
  have conditions' : Fields.readD (Json.listOf? Condition.ofJson?) [] "conditions"
      (groupFields fallback raw forms) = some (Loose.conditions (Table.get? "conditions" raw)) := by
    simp only [Fields.readD, conditions, listOf?_conditionList]
  have visibility' : Fields.readD ShortCondition.ofJson? .always "visibility"
      (groupFields fallback raw forms) =
        some (Loose.shortCondition (Table.get? "visibility" raw)) := by
    simp only [Fields.readD, visibility, ofJson?_shortCondition]
  simp only [Section.ofFields?, titles, number_conforms.read? order, text_conforms.read? baseKey,
    repetition_conforms.read? repetition, fields', conditions', visibility',
    flag_conforms.readD isEnabled, text_conforms.read? step, guard_option_always, extra]
  cases repetition : ((Table.get? "repeat" raw).bind repetition?).all RepeatSpec.fits <;>
    cases fields : (Loose.fields (Table.get? "fields" raw)).all Field.fits <;>
    simp [Option.guard, sectionOf, repetition, fields]

theorem subsections?_eq (fields : Fields) :
    Section.subsections? fields = ((Table.get? "subsections" fields).map Section.list?).getD (some []) := by
  induction fields with
  | nil => simp [Section.subsections?, Table.get?]
  | cons e fields ih =>
    obtain ⟨k, v⟩ := e
    by_cases same : k = "subsections" <;> simp [Section.subsections?, Table.get?, same, ih]

/-- A section and those that follow it are read one by one. -/
theorem items?_toList_append {form : Option Json} {said : Option Section} {forms : List Json}
    {rest : List Section} (first : form.map Section.ofJson? = said.map (Option.guard Section.fits))
    (others : Section.items? forms = Option.guard Section.listFits rest) :
    Section.items? (form.toList ++ forms) = Option.guard Section.listFits (said.toList ++ rest) := by
  cases form with
  | none =>
    cases said with
    | none => exact others
    | some s => cases first
  | some v =>
    cases said with
    | none => cases first
    | some s =>
      have first : Section.ofJson? v = Option.guard Section.fits s := Option.some.inj first
      simp only [Option.toList_some, List.cons_append, List.nil_append, Section.items?, first, others]
      cases fits : s.fits <;> cases all : Section.listFits rest <;>
        simp [Option.guard, Section.listFits, fits, all]

theorem fits_sectionOf (fallback : Option String) (raw : Fields) (below : List Section) :
    (sectionOf fallback raw below).fits =
      ((sectionOf fallback raw below).repetition.all RepeatSpec.fits &&
        (sectionOf fallback raw below).fields.all Field.fits && Section.listFits below) := by
  rw [sectionOf, Section.fits]

/-- A section is read from its canonical form if its own bounds and those below it fit. -/
theorem ofJson?_groupFields (fallback : Option String) (raw : Fields) {forms : List Json}
    {below : List Section} (h : Section.items? forms = Option.guard Section.listFits below) :
    Section.ofJson? (.obj (groupFields fallback raw forms)) =
      Option.guard Section.fits (sectionOf fallback raw below) := by
  obtain ⟨-, -, -, -, -, subsections, -⟩ := get?_groupFields fallback raw forms
  rw [Section.ofJson?, subsections?_eq, subsections, Option.map_some, Option.getD_some, Section.list?, h]
  cases fits : Section.listFits below with
  | false => simp [Option.guard, fits_sectionOf, fits]
  | true =>
    simp only [Option.guard, fits, if_true, ofFields?_groupFields, fits_sectionOf, Bool.and_true]

mutual

theorem reads_section (fallback : Option String) : ∀ v : Json,
    (group? fallback v).map Section.ofJson? =
      (sectionIn? fallback v).map (Option.guard Section.fits)
  | .obj members => by
    have own := reads_under "subsections" members
    have older := reads_under "subSections" members
    rw [group?, sectionIn?, Option.map_some, Option.map_some]
    refine congrArg some (ofJson?_groupFields fallback members ?_)
    cases form : groupsUnder? "subsections" members <;>
      cases said : sectionsUnder? "subsections" members <;> simp [form, said] at own
    · cases form' : groupsUnder? "subSections" members <;>
        cases said' : sectionsUnder? "subSections" members <;> simp [form', said'] at older
      · rfl
      · exact older
    · exact own
  | .null | .bool _ | .num _ | .str _ | .arr _ => by simp [group?, sectionIn?]

theorem reads_under (key : String) : ∀ members : List (String × Json),
    (groupsUnder? key members).map Section.items? =
      (sectionsUnder? key members).map (Option.guard Section.listFits)
  | [] => by simp [groupsUnder?, sectionsUnder?]
  | (k, v) :: members => by
    have here := reads_sections v
    have there := reads_under key members
    by_cases same : k = key <;> simp [groupsUnder?, sectionsUnder?, same, here, there]

theorem reads_sections : ∀ v : Json,
    Section.items? (groupList v) = Option.guard Section.listFits (sections v)
  | .arr items => by simpa [groupList, sections] using reads_items items
  | .obj members => by simpa [groupList, sections] using reads_members members
  | .null | .bool _ | .num _ | .str _ => by
    simp [groupList, sections, Section.items?, Option.guard, Section.listFits]

theorem reads_items : ∀ items : List Json,
    Section.items? (groupItems items) = Option.guard Section.listFits (sectionItems items)
  | [] => by simp [groupItems, sectionItems, Section.items?, Option.guard, Section.listFits]
  | v :: items => by
    rw [groupItems, sectionItems]
    exact items?_toList_append (reads_section none v) (reads_items items)

theorem reads_members : ∀ members : List (String × Json),
    Section.items? (groupMembers members) = Option.guard Section.listFits (sectionMembers members)
  | [] => by simp [groupMembers, sectionMembers, Section.items?, Option.guard, Section.listFits]
  | (k, v) :: members => by
    rw [groupMembers, sectionMembers]
    exact items?_toList_append (reads_section (some k) v) (reads_members members)

end

/-- The values under the names of a template in canonical form. -/
theorem exists_template (raw : Json) : ∃ fields, Canonical.template raw = .obj fields ∧
    Table.get? "id" fields = (Table.get? "id" (templateFields raw)).bind text? ∧
    Table.get? "sections" fields =
      some (.arr (((Table.get? "sections" (templateFields raw)).map groupList).getD [])) ∧
    Table.get? "moduleHints" fields =
      some (.arr (textList (Table.get? "moduleHints" (templateFields raw)))) ∧
    Fields.others Template.properties fields =
      Fields.others Template.properties (templateFields raw) := by
  refine ⟨_, rfl, ?_, ?_, ?_, ?_⟩
  · simp
  · cases h : Table.get? "sections" (templateFields raw) <;> simp [h]
  · simp
  · simp [Template.properties]

end Loose

/-- Reading a loosely written template gives what it says, unless some bound in it is beyond 32 bits. -/
theorem Template.parse?_eq (raw : Json) :
    parse? raw = Option.guard Template.fits (Loose.template raw) := by
  obtain ⟨fields, form, id, sections, moduleHints, extra⟩ := Loose.exists_template raw
  have read : Section.items?
      (((Table.get? "sections" (Canonical.templateFields raw)).map Canonical.groupList).getD []) =
        Option.guard Section.listFits (Loose.template raw).sections := by
    simp only [Loose.template]
    cases Table.get? "sections" (Canonical.templateFields raw) with
    | none => simp [Section.items?, Option.guard, Section.listFits]
    | some v => exact Loose.reads_sections v
  have sections' : Fields.readD Section.list? [] "sections" fields =
      Option.guard Section.listFits (Loose.template raw).sections := by
    simp only [Fields.readD, sections, Section.list?, read]
  have moduleHints' : Fields.readD (Json.listOf? Json.text?) [] "moduleHints" fields =
      some (Loose.texts (Table.get? "moduleHints" (Canonical.templateFields raw))) := by
    simp only [Fields.readD, moduleHints, Loose.listOf?_textList]
  simp only [parse?, form, ofJson?, Loose.text_conforms.read? id, guard_option_always, sections',
    moduleHints', extra]
  cases fits : Section.listFits (Loose.template raw).sections with
  | false =>
    simp only [Option.guard, Template.fits, fits, Bool.false_eq_true, if_false]
    rfl
  | true =>
    simp only [Option.guard, Template.fits, fits, if_true]
    rfl

end Formwork
