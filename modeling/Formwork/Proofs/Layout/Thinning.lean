import Formwork.Proofs.Layout.Records

/-!
# Laying out with sections left out

A form is laid out with all of its sections, and again with some of them left out. A section that is there
both times gets the same identifiers for its fields, provided that no name in it had to give way to one of a
section that is left out. Groups that do not repeat may get another key, since nothing in them is named by
it; but then a repeated group must not have given way to such a key.
-/
namespace Formwork

/-- The name is a later variant of the candidate, chosen because `passed` was taken. -/
def GivesWay (candidate : String) (numbered : Nat → String) (name passed : String) : Prop :=
  ∃ m, 2 ≤ m ∧ name = numbered m ∧ ∃ j < m, passed = variant candidate numbered j

section

variable {candidate : String} {numbered : Nat → String}
  (distinct : ∀ i j, numbered i = numbered j → i = j) {taken taken' : List String}
  (fewer : ∀ name ∈ taken', name ∈ taken)

include distinct fewer

/-- With fewer names taken, an earlier variant is chosen, or the same one. -/
theorem unusedName_fewer :
    unusedName candidate numbered taken' = unusedName candidate numbered taken ∨
      unusedName candidate numbered taken' ∈ taken ∧
        GivesWay candidate numbered (unusedName candidate numbered taken)
          (unusedName candidate numbered taken') := by
  obtain ⟨m, chosen, free, before⟩ := unusedName_eq_variant candidate distinct taken
  obtain ⟨m', chosen', free', before'⟩ := unusedName_eq_variant candidate distinct taken'
  rw [chosen, chosen']
  rcases Nat.lt_trichotomy m' m with earlier | rfl | later
  · by_cases first : m < 2
    · have same : variant candidate numbered m' = variant candidate numbered m := by
        rw [variant, variant, if_pos first, if_pos (by omega)]
      exact .inl same
    · refine .inr ⟨before m' earlier, m, by omega, ?_, m', earlier, rfl⟩
      rw [variant, if_neg first]
  · exact .inl rfl
  · exact absurd (fewer _ (before' m later)) free

/-- With fewer names taken the same name is chosen, if those that it gives way to are still taken. -/
theorem unusedName_eq_of_fewer
    (still : ∀ passed ∈ taken,
      GivesWay candidate numbered (unusedName candidate numbered taken) passed → passed ∈ taken') :
    unusedName candidate numbered taken' = unusedName candidate numbered taken := by
  rcases unusedName_fewer distinct fewer with same | ⟨mem, gives⟩
  · exact same
  · exact absurd (still _ mem gives) (unusedName_not_mem distinct candidate taken')

end

/-- What is called as it asked for gave way to nothing. -/
theorem not_givesWay_self {candidate passed : String} {numbered : Nat → String}
    (longer : ∀ n, numbered n ≠ candidate) : ¬GivesWay candidate numbered candidate passed :=
  fun ⟨m, _, same, _⟩ => longer m same.symm

theorem controlVariant_ne (candidate : String) (n : Nat) : controlVariant candidate n ≠ candidate := by
  intro same
  have length := congrArg String.length same
  simp only [controlVariant, String.length_append] at length
  have : "__".length = 2 := by decide
  omega

theorem groupVariant_ne (candidate : String) (n : Nat) : groupVariant candidate n ≠ candidate := by
  intro same
  have length := congrArg String.length same
  have digits : 0 < (Text.numeral n).length := List.length_pos_iff.2 (Text.numeral_ne_nil n)
  simp only [groupVariant, String.length_append, Text.ofNat, String.length_ofList] at length
  omega

/-- What an unused name gives way to is taken. -/
theorem mem_of_givesWay {candidate passed : String} {numbered : Nat → String}
    (distinct : ∀ i j, numbered i = numbered j → i = j) (longer : ∀ n, numbered n ≠ candidate)
    {taken : List String} (h : GivesWay candidate numbered (unusedName candidate numbered taken) passed) :
    passed ∈ taken := by
  obtain ⟨m, two, name, j, less, rfl⟩ := h
  obtain ⟨m', chosen, -, before⟩ := unusedName_eq_variant candidate distinct taken
  rw [chosen, variant] at name
  split at name
  · exact absurd name.symm (longer m)
  · exact before j (distinct m' m name ▸ less)

/-- What a field gives way to begins with the name that the field asked for. -/
theorem prefix_of_givesWay {candidate name passed : String}
    (h : GivesWay candidate (controlVariant candidate) name passed) :
    candidate.toList <+: passed.toList := by
  obtain ⟨-, -, -, j, -, rfl⟩ := h
  rw [variant]
  split
  · exact List.prefix_rfl
  · rw [controlVariant, String.append_assoc, String.toList_append]
    exact List.prefix_append ..

structure Origin where
  source : Section
  group : Group

mutual

def Blueprint.origins : Blueprint → Group → List Origin
  | ⟨s, _, subsections⟩, g =>
    ⟨s, g⟩ :: g.instances.flatMap fun i => Blueprint.listOrigins subsections i.children

def Blueprint.listOrigins : List Blueprint → List Group → List Origin
  | b :: rest, g :: groups => Blueprint.origins b g ++ Blueprint.listOrigins rest groups
  | _, _ => []

end

def Origin.asked (o : Origin) : String := Blueprint.candidate o.group.scope o.source

/-- What the field asked to be called. -/
def PlacedField.asked (f : PlacedField) : String := f.scope.identifier f.field.id

/-- The field gave way to the name of another one. -/
def PlacedField.GivesWayTo (f : PlacedField) (passed : String) : Prop :=
  GivesWay f.asked (controlVariant f.asked) f.controlId passed

/-- The group gave way to the key of another one. -/
def Origin.GivesWayTo (o : Origin) (passed : String) : Prop :=
  GivesWay o.asked (groupVariant o.asked) o.group.key passed

/-- The group would have the key whatever else there is: it repeats, or the key is what it asked for. -/
def Origin.IsFirm (o : Origin) : Prop := o.group.repeatKey.isSome = true ∨ o.group.key = o.asked

/-- Names of fields and keys of groups in the sections that are not left out. -/
structure Remains where
  /-- The identifiers of the fields. -/
  fields : String → Prop
  /-- The keys of the groups that would have them anyway. -/
  groups : String → Prop

namespace Remains

structure HasField (r : Remains) (f : PlacedField) : Prop where
  named : r.fields f.controlId
  passed : ∀ name, f.GivesWayTo name → r.fields name

structure HasGroup (r : Remains) (o : Origin) : Prop where
  named : r.groups o.group.key → o.IsFirm
  passed : o.group.repeatKey.isSome = true → ∀ name, o.GivesWayTo name → r.groups name

variable (r : Remains) (outset : Registry)

/-- How far the form is laid out with all sections and with some of them left out. -/
structure Thinned (p q : Progress) : Prop where
  controls : ∀ name, name ∈ q.controlIds ↔ name ∈ p.controlIds ∧ r.fields name
  groups : ∀ name ∈ q.groupKeys, name ∈ p.groupKeys
  firm : ∀ name ∈ p.groupKeys, r.groups name → name ∈ q.groupKeys
  untouched : p.Untouched outset
  untouched' : q.Untouched outset

variable {r outset} {p q : Progress}

open Progress

theorem Thinned.controlName (h : r.Thinned outset p q) (candidate : String)
    (passed : ∀ name, GivesWay candidate (controlVariant candidate) (p.controlName candidate) name →
      r.fields name) : q.controlName candidate = p.controlName candidate :=
  unusedName_eq_of_fewer (controlVariant_injective candidate) (fun name mem => ((h.controls name).1 mem).1)
    fun name mem gives => (h.controls name).2 ⟨mem, passed name gives⟩

theorem Thinned.groupName (h : r.Thinned outset p q) (candidate : String)
    (passed : ∀ name, GivesWay candidate (groupVariant candidate) (p.groupName candidate) name →
      r.groups name) : q.groupName candidate = p.groupName candidate :=
  unusedName_eq_of_fewer (groupVariant_injective candidate) h.groups
    fun name mem gives => h.firm name mem (passed name gives)

/-- What is called as it asked for is so with fewer names taken. -/
theorem Thinned.groupName_of_first (h : r.Thinned outset p q) {candidate : String}
    (first : p.groupName candidate = candidate) : q.groupName candidate = p.groupName candidate := by
  have free := p.groupName_not_mem candidate
  rw [first] at free ⊢
  exact if_neg fun mem => free (h.groups candidate mem)

/-- A group is named both times. -/
theorem Thinned.nameGroup (h : r.Thinned outset p q) (candidate : String)
    (firm : r.groups (p.groupName candidate) → q.groupName candidate = p.groupName candidate) :
    r.Thinned outset (p.nameGroup candidate).2 (q.nameGroup candidate).2 where
  controls := h.controls
  groups := by
    intro name mem
    rcases List.mem_cons.1 mem with rfl | mem
    · rcases unusedName_fewer (groupVariant_injective candidate) h.groups with same | ⟨taken, -⟩
      · exact List.mem_cons.2 (.inl same)
      · exact List.mem_cons_of_mem _ taken
    · exact List.mem_cons_of_mem _ (h.groups name mem)
  firm := by
    intro name mem remains
    rcases List.mem_cons.1 mem with rfl | mem
    · exact List.mem_cons.2 (.inl (firm remains).symm)
    · exact List.mem_cons_of_mem _ (h.firm name mem remains)
  untouched := fun other unnamed => h.untouched other fun there => unnamed (List.mem_cons_of_mem _ there)
  untouched' := fun other unnamed => h.untouched' other fun there => unnamed (List.mem_cons_of_mem _ there)

/-- A section that is left out is laid out once. -/
theorem Thinned.skip {p' : Progress} {opening : String} {fields : List PlacedField}
    {groups : List Group} (h : r.Thinned outset p q) (grown : Grown opening p p' fields groups)
    (absent : ∀ f ∈ fields, ¬r.fields f.controlId) (absent' : ∀ g ∈ groups, ¬r.groups g.key) :
    r.Thinned outset p' q where
  controls := by
    intro name
    rw [h.controls, grown.controlIds, List.mem_append, List.mem_reverse]
    constructor
    · exact fun ⟨mem, remains⟩ => ⟨.inr mem, remains⟩
    · rintro ⟨new | mem, remains⟩
      · obtain ⟨f, hf, rfl⟩ := List.mem_map.1 new
        exact absurd remains (absent f hf)
      · exact ⟨mem, remains⟩
  groups := by
    intro name mem
    rw [grown.groupKeys]
    exact List.mem_append_right _ (h.groups name mem)
  firm := by
    intro name mem remains
    rw [grown.groupKeys, List.mem_append, List.mem_reverse] at mem
    rcases mem with new | mem
    · obtain ⟨g, hg, rfl⟩ := List.mem_map.1 new
      exact absurd remains (absent' g hg)
    · exact h.firm name mem remains
  untouched := h.untouched.after grown
  untouched' := h.untouched'

theorem placeField_thinned (h : r.Thinned outset p q) (scope : Scope) (f : Field)
    (has : r.HasField (placeField scope p f).1) :
    (placeField scope q f).1 = (placeField scope p f).1 ∧
      r.Thinned outset (placeField scope p f).2 (placeField scope q f).2 := by
  have name : q.controlName (scope.identifier f.id) = p.controlName (scope.identifier f.id) :=
    h.controlName _ has.passed
  have named : r.fields (p.controlName (scope.identifier f.id)) := has.named
  rw [placeField_eq, placeField_eq, name]
  refine ⟨rfl, { h with controls := fun other => ?_ }⟩
  rw [List.mem_cons, List.mem_cons, h.controls]
  by_cases same : other = p.controlName (scope.identifier f.id)
  · simp [same, named]
  · simp [same]

theorem placeFields_thinned (h : r.Thinned outset p q) (scope : Scope) (fields : List Field)
    (has : ∀ f ∈ (threaded (placeField scope) p fields).1, r.HasField f) :
    (threaded (placeField scope) q fields).1 = (threaded (placeField scope) p fields).1 ∧
      r.Thinned outset (threaded (placeField scope) p fields).2
        (threaded (placeField scope) q fields).2 := by
  induction fields generalizing p q with
  | nil => exact ⟨rfl, h⟩
  | cons f fields ih =>
    obtain ⟨first, thinned⟩ := placeField_thinned h scope f (has _ List.mem_cons_self)
    obtain ⟨others, thinned⟩ := ih thinned fun f' hf => has f' (List.mem_cons_of_mem _ hf)
    rw [threaded_cons, threaded_cons, first, others]
    exact ⟨rfl, thinned⟩

open Blueprint

variable (layout : Layout) (step : Option String)

/-- Under the same key the same count is settled. -/
theorem Thinned.settled (h : r.Thinned outset p q) (kind : GroupKind) (scope : Scope) {s : Section}
    (spec : RepeatSpec) (key : q.groupName (candidate scope s) = p.groupName (candidate scope s)) :
    (settled { layout with step } kind scope s spec q).1 = (settled layout kind scope s spec p).1 ∧
      r.Thinned outset (settled layout kind scope s spec p).2
        (settled { layout with step } kind scope s spec q).2 := by
  have free := p.groupName_not_mem (candidate scope s)
  have free' := q.groupName_not_mem (candidate scope s)
  have counts : q.registry.count? (p.groupName (candidate scope s)) =
      p.registry.count? (p.groupName (candidate scope s)) :=
    (h.untouched' _ (key ▸ free')).trans (h.untouched _ free).symm
  constructor
  · simp only [Blueprint.settled, Progress.settle, nameGroup_eq, key]
    exact Registry.countFor_congr counts _
  · exact { h.nameGroup (candidate scope s) fun _ => key with
      untouched := untouched_settled layout kind scope s spec h.untouched
      untouched' := untouched_settled { layout with step } kind scope s spec h.untouched' }

def Follows (r : Remains) (outset : Registry) (layout : Layout) (step : Option String) (scope : Scope)
    (subsections : List Blueprint) : Prop :=
  ∀ {p q : Progress}, r.Thinned outset p q →
    (∀ f ∈ Group.listFields (layOutList layout scope p subsections).1, r.HasField f) →
    (∀ o ∈ listOrigins subsections (layOutList layout scope p subsections).1, r.HasGroup o) →
    Group.listFields (layOutList { layout with step } scope q subsections).1 =
        Group.listFields (layOutList layout scope p subsections).1 ∧
      r.Thinned outset (layOutList layout scope p subsections).2
        (layOutList { layout with step } scope q subsections).2

variable {layout step} {scope : Scope} {subsections : List Blueprint}

theorem layOutBody_thinned (below : r.Follows outset layout step scope subsections)
    (h : r.Thinned outset p q) (fields : List Field)
    (has : ∀ f ∈ (layOutBody layout scope fields subsections p).1.1 ++
      Group.listFields (layOutBody layout scope fields subsections p).1.2, r.HasField f)
    (groups : ∀ o ∈ listOrigins subsections (layOutBody layout scope fields subsections p).1.2,
      r.HasGroup o) :
    let body := layOutBody layout scope fields subsections p
    let body' := layOutBody { layout with step } scope fields subsections q
    body'.1.1 ++ Group.listFields body'.1.2 = body.1.1 ++ Group.listFields body.1.2 ∧
      r.Thinned outset body.2 body'.2 := by
  obtain ⟨own, thinned⟩ :=
    placeFields_thinned h scope fields fun f hf => has f (List.mem_append_left _ hf)
  obtain ⟨others, thinned⟩ := below thinned (fun f hf => has f (List.mem_append_right _ hf)) groups
  exact ⟨congr (congrArg HAppend.hAppend own) others, thinned⟩

theorem layOutInstances_thinned {key : String} (caption : String) (fields : List Field)
    (below : ∀ index, r.Follows outset layout step (instanceScope scope key index) subsections)
    (h : r.Thinned outset p q) (indices : List Nat)
    (has : ∀ f ∈ GroupInstance.listFields (threaded
      (layOutInstance layout scope key caption fields subsections) p indices).1, r.HasField f)
    (groups : ∀ i ∈ (threaded (layOutInstance layout scope key caption fields subsections) p indices).1,
      ∀ o ∈ listOrigins subsections i.children, r.HasGroup o) :
    let laid := threaded (layOutInstance layout scope key caption fields subsections) p indices
    let laid' := threaded
      (layOutInstance { layout with step } scope key caption fields subsections) q indices
    GroupInstance.listFields laid'.1 = GroupInstance.listFields laid.1 ∧
      r.Thinned outset laid.2 laid'.2 := by
  induction indices generalizing p q with
  | nil => exact ⟨rfl, h⟩
  | cons index indices ih =>
    obtain ⟨body, thinned⟩ := layOutBody_thinned (below index) h fields
      (fun f hf => has f (List.mem_append_left _ hf)) (groups _ List.mem_cons_self)
    obtain ⟨others, thinned⟩ := ih thinned (fun f hf => has f (List.mem_append_right _ hf))
      fun i hi => groups i (List.mem_cons_of_mem _ hi)
    have fields := congr (congrArg HAppend.hAppend body) others
    exact ⟨fields, thinned⟩

mutual

/-- A section that is there both times gets the same fields. -/
theorem layOut_thinned (layout : Layout) (step : Option String) (kind : GroupKind) (scope : Scope) :
    ∀ (b : Blueprint) {p q : Progress}, r.Thinned outset p q →
      (∀ f ∈ (layOut layout kind scope p b).1.fields, r.HasField f) →
      (∀ o ∈ origins b (layOut layout kind scope p b).1, r.HasGroup o) →
      (layOut { layout with step } kind scope q b).1.fields =
          (layOut layout kind scope p b).1.fields ∧
        r.Thinned outset (layOut layout kind scope p b).2 (layOut { layout with step } kind scope q b).2
  | ⟨s, fields, subsections⟩, p, q, h, has, groups => by
    cases hs : s.repeats? with
    | none =>
      rw [layOut_of_plain layout kind scope p fields subsections hs] at has groups ⊢
      rw [layOut_of_plain { layout with step } kind scope q fields subsections hs]
      rw [origins, List.flatMap_cons, List.flatMap_nil, List.append_nil] at groups
      simp only [Group.fields, GroupInstance.listFields, List.append_nil] at has ⊢
      have named := h.nameGroup (candidate scope s) fun remains => by
        rcases (groups _ List.mem_cons_self).named remains with repeats | first
        · cases repeats
        · exact h.groupName_of_first first
      exact layOutBody_thinned (layOutList_thinned layout step scope subsections) named fields has
        fun o ho => groups o (List.mem_cons_of_mem _ ho)
    | some spec =>
      rw [layOut_of_settled layout kind scope p fields subsections hs] at has groups ⊢
      rw [layOut_of_settled { layout with step } kind scope q fields subsections hs]
      rw [origins] at groups
      simp only [Group.fields] at has ⊢
      have key : q.groupName (candidate scope s) = p.groupName (candidate scope s) :=
        h.groupName _ ((groups _ List.mem_cons_self).passed rfl)
      obtain ⟨count, settled⟩ := h.settled layout step kind scope spec key
      rw [key, count]
      exact layOutInstances_thinned (s.instanceLabel spec) fields
        (fun index => layOutList_thinned layout step (instanceScope scope _ index) subsections) settled
        _ has fun i hi o ho => groups o (List.mem_cons_of_mem _ (List.mem_flatMap.2 ⟨i, hi, ho⟩))

/-- Subsections that are there both times get the same fields. -/
theorem layOutList_thinned (layout : Layout) (step : Option String) (scope : Scope) :
    ∀ (l : List Blueprint) {p q : Progress}, r.Thinned outset p q →
      (∀ f ∈ Group.listFields (layOutList layout scope p l).1, r.HasField f) →
      (∀ o ∈ listOrigins l (layOutList layout scope p l).1, r.HasGroup o) →
      Group.listFields (layOutList { layout with step } scope q l).1 =
          Group.listFields (layOutList layout scope p l).1 ∧
        r.Thinned outset (layOutList layout scope p l).2 (layOutList { layout with step } scope q l).2
  | [], _, _, h, _, _ => by
    rw [layOutList, layOutList]
    exact ⟨rfl, h⟩
  | b :: rest, p, q, h, has, groups => by
    rw [layOutList_cons] at has groups ⊢
    rw [layOutList_cons]
    obtain ⟨first, thinned⟩ := layOut_thinned layout step .subsection scope b h
      (fun f hf => has f (List.mem_append_left _ hf)) fun o ho => groups o (List.mem_append_left _ ho)
    obtain ⟨others, thinned⟩ := layOutList_thinned layout step scope rest thinned
      (fun f hf => has f (List.mem_append_right _ hf)) fun o ho => groups o (List.mem_append_right _ ho)
    have fields := congr (congrArg HAppend.hAppend first) others
    exact ⟨fields, thinned⟩

end

end Remains

end Formwork
