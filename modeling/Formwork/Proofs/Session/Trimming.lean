import Formwork.Proofs.Layout.Enclosed
import Formwork.Proofs.Layout.Telling
import Formwork.Proofs.Session.Sorted
import Formwork.Proofs.Session.Trails

/-!
# Nothing is left beyond the last instance

Counts outlast the groups that they were recorded for. Where the names of a repeated group are not mistaken, no
count is recorded under a name that reads as an instance beyond the last one: a removal takes the counts of the
instance away and moves those of later instances down, and the count of the group itself is never lowered in any
other way, since the group has the same bounds wherever it is entered.
-/
namespace Formwork

/-- The count is within each of the bounds. -/
def RepeatBounds.Admit (bounds : RepeatBounds → Prop) (n : Nat) : Prop :=
  ∀ b, bounds b → b.min ≤ n ∧ n ≤ b.max

/-- The count of the group is within its bounds, and no count is recorded beyond its last instance. -/
structure Registry.Trimmed (key : String) (bounds : RepeatBounds → Prop) (g : Registry) : Prop where
  range : ∀ c, g.count? key = some c → RepeatBounds.Admit bounds c
  slots : ∀ name, (g.count? name).isSome → ∀ slot, Slot.ofName? (key ++ "_") name = some slot →
    ∃ c, g.count? key = some c ∧ slot.index ≤ c

open RepeatBounds (Admit)

/-- What reads as inside a group begins with the key of the group. -/
theorem Slot.exists_append_of_ofName? {key name : String} {s : Slot}
    (found : ofName? (key ++ "_") name = some s) : ∃ more, name = key ++ more := by
  obtain ⟨digits, -, -, chars⟩ := ofName?_eq_some_iff.1 found
  refine ⟨"_" ++ String.ofList (digits ++ '_' :: s.rest.toList), String.toList_inj.1 ?_⟩
  simp only [chars, String.toList_append, String.toList_ofList, List.append_assoc]

namespace Registry

variable {g : Registry} {key : String} {bounds : RepeatBounds → Prop}

theorem isSome_get?_modify {α : Type} (key name : String) (f : α → α) (t : Table α) :
    (Table.get? name (Table.modify key f t)).isSome = (Table.get? name t).isSome := by
  by_cases same : name = key
  · rw [same, Table.get?_modify_self, Option.isSome_map]
  · rw [Table.get?_modify_of_ne same]

theorem trimmed_empty (key : String) (bounds : RepeatBounds → Prop) : Registry.empty.Trimmed key bounds :=
  ⟨nofun, nofun⟩

/-- One more instance, where there may be one. -/
theorem Trimmed.add (h : g.Trimmed key bounds) (single : ∀ b b', bounds b → bounds b' → b = b')
    {other : String} {added : Registry} (done : g.add? other = some added)
    (own : ∀ e, g.entry? key = some e → bounds e.bounds) : added.Trimmed key bounds := by
  obtain ⟨e, n, entry, count, able, rfl⟩ := add?_eq_some_iff.1 done
  by_cases same : key = other
  · subst same
    have raised : count? key { g with counts := Table.modify key (· + 1) g.counts } = some (n + 1) := by
      rw [count?, Table.get?_modify_self]
      exact congrArg (Option.map (· + 1)) count
    constructor
    · intro c found b hb
      obtain rfl := Option.some.inj (raised.symm.trans found)
      obtain rfl := single _ _ (own e entry) hb
      obtain ⟨least, -⟩ := h.range n count _ hb
      omega
    · intro name recorded slot read
      rw [count?, isSome_get?_modify] at recorded
      obtain ⟨c, found, le⟩ := h.slots name recorded slot read
      obtain rfl := Option.some.inj (count.symm.trans found)
      exact ⟨n + 1, raised, by omega⟩
  · have kept : count? key { g with counts := Table.modify other (· + 1) g.counts } = g.count? key :=
      Table.get?_modify_of_ne same _ _
    constructor
    · rw [kept]
      exact h.range
    · intro name recorded slot read
      rw [count?, isSome_get?_modify] at recorded
      rw [kept]
      exact h.slots name recorded slot read

/-- One instance less, where there may be one less. -/
theorem Trimmed.remove (h : g.Trimmed key bounds) (single : ∀ b b', bounds b → bounds b' → b = b')
    {index : Nat} {r : Removal} {lowered : Registry} (done : g.remove? key index = some (r, lowered))
    (own : ∀ e, g.entry? key = some e → bounds e.bounds) (stem : r.stem = key ++ "_")
    (ascending : g.counts.Ascending) (limit : r.count < Slot.indexLimit) : lowered.Trimmed key bounds := by
  obtain ⟨e, n, entry, count, dispensable, positive, range, rfl, rfl⟩ := remove?_eq_some_iff.1 done
  have stem : e.stem = key ++ "_" := stem
  have spared : Removal.Spares ⟨e.stem, index, n⟩ key :=
    Removal.spares_of_ofName?_eq_none (stem.symm ▸ Slot.ofName?_self key)
  have fewer : Table.get? key (Table.modify key (· - 1) (Removal.shift ⟨e.stem, index, n⟩ g.counts)) =
      some (n - 1) := by
    rw [Table.get?_modify_self, Removal.get?_shift_of_spares limit ascending range spared]
    exact congrArg (Option.map (· - 1)) count
  constructor
  · intro c found b hb
    obtain rfl := Option.some.inj (fewer.symm.trans found)
    obtain rfl := single _ _ (own e entry) hb
    obtain ⟨-, most⟩ := h.range n count _ hb
    omega
  · intro name recorded slot read
    refine ⟨n - 1, fewer, ?_⟩
    rw [count?, isSome_get?_modify, Table.isSome_get?_iff, Removal.mem_names_shift] at recorded
    obtain ⟨before, there, renamed⟩ := recorded
    rcases Removal.rename?_cases renamed with ⟨spared, rfl⟩ | ⟨slot', found, after, last, rfl⟩
    · obtain ⟨c, count', le⟩ := h.slots name (Table.isSome_get?_iff.2 there) slot read
      obtain rfl := Option.some.inj (count.symm.trans count')
      have := spared slot (stem ▸ read)
      dsimp only at this
      omega
    · rw [← stem] at read
      have := Slot.index_le_of_ofName?_name read
      dsimp only at last
      omega

end Registry

section

variable {layout : Layout} {t : Template} {base final : Registry} {tree : FormTree} {key : String}
  {bounds : RepeatBounds → Prop} (apart : tree.Apart key)
  (built : FormTree.build layout t base = (tree, final))
  (own : ∀ e, final.entry? key = some e → bounds e.bounds)
  (single : ∀ b b', bounds b → bounds b' → b = b')

include apart built own single

/-- A form that is laid out is trimmed, if the counts are that no group in it is entered for. -/
theorem FormTree.trimmed_of_build
    (range : final.entry? key = none → ∀ c, base.count? key = some c → Admit bounds c)
    (slots : ∀ name, final.entry? name = none → (base.count? name).isSome → ∀ slot,
      Slot.ofName? (key ++ "_") name = some slot →
        ∃ c, base.count? key = some c ∧ slot.index ≤ c ∧ Admit bounds c) :
    final.Trimmed key bounds := by
  constructor
  · intro c found b hb
    cases entry : final.entry? key with
    | none => exact range entry c ((count?_of_not_entered built entry).symm.trans found) b hb
    | some e =>
      obtain ⟨-, n, count, holds⟩ := holds_of_build built entry
      obtain rfl := Option.some.inj (count.symm.trans found)
      obtain rfl := single _ _ (own e entry) hb
      exact ⟨holds.least, holds.greatest⟩
  · intro name recorded slot read
    cases entered : final.entry? name with
    | some e =>
      obtain ⟨g, hg, repeats⟩ := exists_group_of_entry built entered
      obtain ⟨q, -, grown⟩ := build_grown layout t base
      rw [built] at grown
      obtain ⟨rfl, -⟩ := grown.counted g hg name repeats
      exact index_le_of_group apart built hg read
    | none =>
      rw [count?_of_not_entered built entered] at recorded
      obtain ⟨c, count, le, admits⟩ := slots name entered recorded slot read
      refine ⟨c, ?_, le⟩
      cases entry : final.entry? key with
      | none => exact (count?_of_not_entered built entry).trans count
      | some e =>
        obtain ⟨named, -⟩ := holds_of_build built entry
        obtain ⟨least, most⟩ := admits _ (own e entry)
        have told : e.bounds.clamp c = c := by
          have clamped : e.bounds.clamp c = min (max c e.bounds.min) e.bounds.max := rfl
          omega
        rw [count?_of_build built entry, Registry.countFor, named, count, told]

/-- A form that is laid out from trimmed counts is trimmed. -/
theorem Registry.Trimmed.build (h : base.Trimmed key bounds) : final.Trimmed key bounds := by
  refine FormTree.trimmed_of_build apart built own single (fun _ => h.range) ?_
  intro name _ recorded slot read
  obtain ⟨c, count, le⟩ := h.slots name recorded slot read
  exact ⟨c, count, le, h.range c count⟩

end

namespace Session

/-- The form is laid out from the counts in the registry. -/
def LaidOutFrom (base : Registry) (s : Session) : Prop :=
  ∃ stored, FormTree.build ⟨s.step, stored, s.config.repeatFallbackMax⟩ s.template base =
    (s.tree, s.registry)

/-- What an operation can do to the counts of a form. -/
inductive Recounts (s : Session) (operation : Operation) (t : Session) : Prop
  | kept (template : t.template = s.template) (registry : t.registry = s.registry)
  | forgot (laidOut : t.LaidOutFrom .empty)
  | renewed (template : t.template = s.template) (laidOut : t.LaidOutFrom s.registry)
  | added (key : String) (registry : Registry) (template : t.template = s.template)
      (added : s.registry.add? key = some registry) (laidOut : t.LaidOutFrom registry)
  | removed (key : String) (index : Nat) (r : Removal) (registry : Registry)
      (operation : operation = .removeInstance key index) (done : s.removeInstance? key index = some t)
      (template : t.template = s.template) (removed : s.registry.remove? key index = some (r, registry))
      (laidOut : t.LaidOutFrom registry)

variable {s t : Session}

theorem laidOutFrom_rebuild (before : Fields) (u : Session) :
    (u.rebuild before).LaidOutFrom u.registry := by
  refine ⟨u.stored, ?_⟩
  rw [rebuild, settle_eq]
  rfl

theorem recounts_settle {u : Session} {operation : Operation} (template : u.template = s.template)
    (registry : u.registry = s.registry) : s.Recounts operation u.settle := by
  refine .kept ?_ ((registry_settle u).trans registry)
  rw [settle_eq]
  exact template

theorem recounts_run (s : Session) (operation : Operation) : s.Recounts operation (s.run operation) := by
  have forgot (u : Session) (before : Fields) (none : u.registry = .empty) :
      s.Recounts operation (u.rebuild before) := .forgot (none ▸ laidOutFrom_rebuild before u)
  have renewed (u : Session) (before : Fields) (template : u.template = s.template)
      (registry : u.registry = s.registry) : s.Recounts operation (u.rebuild before) :=
    .renewed ((template_rebuild before u).trans template) (registry ▸ laidOutFrom_rebuild before u)
  have effect := s.effect_run operation
  generalize s.run operation = t at effect ⊢
  cases effect with
  | refused => exact .kept rfl rfl
  | passTime => exact .kept rfl rfl
  | setOperator => exact renewed _ _ rfl rfl
  | loadTemplate => exact forgot _ _ rfl
  | fetchTemplate => exact forgot _ _ rfl
  | loadDocument => exact forgot _ _ rfl
  | fetchDocument => exact forgot _ _ rfl
  | setStep => exact renewed _ _ rfl rfl
  | setValue => exact recounts_settle rfl rfl
  | touch => exact .kept rfl rfl
  | addInstance key registry added =>
    exact .added key registry (template_rebuild _ _) added (laidOutFrom_rebuild _ _)
  | removeInstance key index r registry removed =>
    exact .removed key index r registry rfl (Option.map_eq_some_iff.2 ⟨_, removed, rfl⟩)
      (template_rebuild _ _) removed (laidOutFrom_rebuild _ _)
  | askForChoices => exact .kept rfl rfl
  | missedChoices => exact .kept rfl rfl
  | receiveChoices => exact recounts_settle rfl rfl
  | resolveChoices => exact recounts_settle rfl rfl
  | select => exact recounts_settle rfl rfl
  | deselect => exact recounts_settle rfl rfl
  | commitSaved => exact .kept rfl rfl
  | save => exact .kept rfl rfl

/-- Counts under names that read as inside the group are those of groups in the form. -/
def Accounts (key : String) (s : Session) : Prop :=
  ∀ name ∈ Table.names s.registry.counts, (Slot.ofName? (key ++ "_") name).isSome →
    (s.registry.entry? name).isSome

instance (key : String) (s : Session) : Decidable (s.Accounts key) :=
  inferInstanceAs (Decidable (∀ name ∈ Table.names s.registry.counts,
    (Slot.ofName? (key ++ "_") name).isSome → (s.registry.entry? name).isSome))

/-- If an instance of another group is removed, no count is left under a name that reads as inside that
group. -/
def LeavesNone (key : String) (s : Session) : Operation → Prop
  | .removeInstance other index => other ≠ key → ∀ t ∈ s.removeInstance? other index, t.Accounts other
  | _ => True

instance (key : String) (s : Session) (operation : Operation) : Decidable (s.LeavesNone key operation) := by
  cases operation with
  | removeInstance other index =>
    exact inferInstanceAs (Decidable (other ≠ key → ∀ t ∈ s.removeInstance? other index, t.Accounts other))
  | _ => exact isTrue trivial

/-- No name is mistaken for one inside the group in any of the sessions, and the group has the same bounds
wherever it is entered for a template. Counts are 32-bit numbers. -/
structure Unmistaken (key : String) (states : List Session) : Prop where
  apart : ∀ w ∈ states, w.tree.Apart key
  single : ∀ v ∈ states, ∀ w ∈ states, v.template = w.template →
    ∀ e e', v.registry.entry? key = some e → w.registry.entry? key = some e' → e.bounds = e'.bounds
  limit : ∀ w ∈ states, ∀ name n, w.registry.count? name = some n → n < Slot.indexLimit

/-- The bounds that the group has in the sessions for a template. -/
def Bounding (key : String) (states : List Session) (template : Template) (b : RepeatBounds) : Prop :=
  ∃ w ∈ states, w.template = template ∧ ∃ e, w.registry.entry? key = some e ∧ e.bounds = b

variable {key : String} {states : List Session}

theorem Unmistaken.single_bounds (h : Unmistaken key states) (template : Template) (b b' : RepeatBounds)
    (hb : Bounding key states template b) (hb' : Bounding key states template b') : b = b' := by
  obtain ⟨v, hv, rfl, e, entry, rfl⟩ := hb
  obtain ⟨w, hw, same, e', entry', rfl⟩ := hb'
  exact h.single v hv w hw same.symm e e' entry entry'

/-- What is recorded after a removal under a name that no group has was recorded under it before. -/
theorem spares_of_accounts {other name : String} {r : Removal} {counts : Table Nat}
    (accounts : t.Accounts other) (stem : r.stem = other ++ "_") (none : t.registry.entry? name = none)
    (count : (t.registry.count? name).isSome) (recorded : (Table.get? name (r.shift counts)).isSome) :
    r.Spares name ∧ (Table.get? name counts).isSome := by
  obtain ⟨before, there, renamed⟩ := Removal.mem_names_shift.1 (Table.isSome_get?_iff.1 recorded)
  rcases Removal.rename?_cases renamed with ⟨spared, rfl⟩ | ⟨slot, found, after, last, rfl⟩
  · exact ⟨spared, Table.isSome_get?_iff.2 there⟩
  · have small := Slot.index_lt_of_ofName? found
    have read : (Slot.ofName? (other ++ "_") (Slot.name r.stem ⟨slot.index - 1, slot.rest⟩)).isSome := by
      rw [← stem, Slot.ofName?_name r.stem (by dsimp only; omega)]
      rfl
    have entered := accounts _ (Table.isSome_get?_iff.1 count) read
    rw [none] at entered
    cases entered

/-- The removal of an instance of another group leaves the counts trimmed. -/
theorem trimmed_removed {bounds : RepeatBounds → Prop} (reachable : s.Reachable)
    (trimmed : s.registry.Trimmed key bounds) (apart : t.tree.Apart key)
    (own : ∀ e, t.registry.entry? key = some e → bounds e.bounds)
    (single : ∀ b b', bounds b → bounds b' → b = b') {other : String} {index : Nat} {r : Removal}
    {registry : Registry} (removed : s.registry.remove? other index = some (r, registry))
    (limit : r.count < Slot.indexLimit) (ne : key ≠ other) (accounts : t.Accounts other)
    (laidOut : t.LaidOutFrom registry) : t.registry.Trimmed key bounds := by
  obtain ⟨stored, built⟩ := laidOut
  obtain ⟨e, n, entry, -, -, -, range, rfl, rfl⟩ := Registry.remove?_eq_some_iff.1 removed
  have stem := reachable.standing.laidOut.stem_eq entry
  have sorted := reachable.sorted.counts
  let r : Removal := ⟨e.stem, index, n⟩
  let lowered : Registry := { s.registry with counts := Table.modify other (· - 1) (r.shift s.registry.counts) }
  have left (name : String) (none : t.registry.entry? name = none) (recorded : (lowered.count? name).isSome) :
      r.Spares name ∧ (s.registry.count? name).isSome := by
    have count : (t.registry.count? name).isSome := by
      rwa [FormTree.count?_of_not_entered built none]
    rw [Registry.count?, Registry.isSome_get?_modify] at recorded
    exact spares_of_accounts accounts stem none count recorded
  have kept (spared : r.Spares key) : lowered.count? key = s.registry.count? key :=
    (Table.get?_modify_of_ne ne (· - 1) _).trans
      (Removal.get?_shift_of_spares limit sorted range spared)
  refine FormTree.trimmed_of_build apart built own single (fun none c count => ?_)
    fun name none recorded slot read => ?_
  · obtain ⟨spared, -⟩ := left key none (by rw [count]; rfl)
    exact trimmed.range c ((kept spared).symm.trans count)
  · obtain ⟨spared, there⟩ := left name none recorded
    obtain ⟨c, count, le⟩ := trimmed.slots name there slot read
    obtain ⟨more, rfl⟩ := Slot.exists_append_of_ofName? read
    exact ⟨c, (kept spared.of_append).trans count, le, trimmed.range c count⟩

/-- Every operation keeps the counts trimmed. -/
theorem trimmed_run (unmistaken : Unmistaken key states) (reachable : s.Reachable) (here : s ∈ states)
    (operation : Operation) (next : s.run operation ∈ states) (leaves : s.LeavesNone key operation)
    (trimmed : s.registry.Trimmed key (Bounding key states s.template)) :
    (s.run operation).registry.Trimmed key (Bounding key states (s.run operation).template) := by
  have apart := unmistaken.apart _ next
  have single := unmistaken.single_bounds
  have own : ∀ e, s.registry.entry? key = some e → Bounding key states s.template e.bounds :=
    fun e entry => ⟨s, here, rfl, e, entry, rfl⟩
  have own' : ∀ e, (s.run operation).registry.entry? key = some e →
      Bounding key states (s.run operation).template e.bounds :=
    fun e entry => ⟨_, next, rfl, e, entry, rfl⟩
  cases s.recounts_run operation with
  | kept template registry => rwa [registry, template]
  | forgot laidOut =>
    obtain ⟨stored, built⟩ := laidOut
    exact (Registry.trimmed_empty key _).build apart built own' (single _)
  | renewed template laidOut =>
    obtain ⟨stored, built⟩ := laidOut
    exact (template ▸ trimmed).build apart built own' (single _)
  | added other registry template added laidOut =>
    obtain ⟨stored, built⟩ := laidOut
    exact (template ▸ trimmed.add (single _) added own).build apart built own' (single _)
  | removed other index r registry operation done template removed laidOut =>
    obtain ⟨e, n, entry, count, -, -, -, rfl, -⟩ := Registry.remove?_eq_some_iff.1 removed
    have limit : n < Slot.indexLimit := unmistaken.limit s here other n count
    by_cases same : other = key
    · subst same
      obtain ⟨stored, built⟩ := laidOut
      have stem := reachable.standing.laidOut.stem_eq entry
      have lowered := trimmed.remove (single _) removed own stem reachable.sorted.counts limit
      exact (template ▸ lowered).build apart built own' (single _)
    · subst operation
      have accounts := leaves same _ done
      exact trimmed_removed reachable (template ▸ trimmed) apart own' (single _) removed limit
        (fun eq => same eq.symm) accounts laidOut

/-- In a run in which no name is mistaken and no removal leaves counts behind, the counts are trimmed. -/
theorem trimmed_runAll {now : String} {config : Config} {template : Template} {operations : List Operation}
    (unmistaken : Unmistaken key states) (within : (start now config template).states operations ⊆ states)
    (leaves : ∀ x ∈ (start now config template).trail operations, x.1.LeavesNone key x.2) :
    let s := (start now config template).runAll operations
    s.registry.Trimmed key (Bounding key states s.template) := by
  let first := start now config template
  have here : first ∈ states := within (self_mem_states first operations)
  obtain ⟨stored, built⟩ : first.LaidOutFrom .empty := laidOutFrom_rebuild _ _
  have trimmed : first.registry.Trimmed key (Bounding key states first.template) :=
    (Registry.trimmed_empty key _).build (unmistaken.apart first here) built
      (fun e entry => ⟨first, here, rfl, e, entry, rfl⟩) (unmistaken.single_bounds first.template)
  have all : ∀ w ∈ first.states operations,
      w.Reachable ∧ w.registry.Trimmed key (Bounding key states w.template) := by
    refine forall_states ⟨.start now config template, trimmed⟩ fun x hx ⟨reachable, trimmed⟩ => ?_
    exact ⟨reachable.run x.2, trimmed_run unmistaken reachable (within (fst_mem_states hx)) x.2
      (within (run_mem_states hx)) (leaves x hx) trimmed⟩
  exact (all _ (runAll_mem_states first operations)).2

end Session

end Formwork
