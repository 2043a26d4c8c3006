import Formwork.Proofs.Removal.Contraction
import Formwork.Proofs.Session.Binding
import Formwork.Proofs.Session.Sorted

/-!
# Removing an instance of a repeated group

Values, counts and selections are changed by the text of their names, and the form is laid out anew from
the template. If no name outside of the group reads as one inside it, the two agree: the form is the
earlier one without the instance, and everything in it keeps its value. Otherwise data outside of the
group is touched, and exactly that under names that read as the removed instance or a later one.
-/
namespace Formwork

namespace Session

variable {s t : Session} {key : String} {index : Nat} {r : Removal} {registry : Registry}

/-- What is known of the form, changed for the removal of an instance. -/
def shifted (r : Removal) (registry : Registry) (s : Session) : Session :=
  { s with registry, stored := r.shift s.stored, selections := r.shift s.selections }

/-- The form as it is laid out and bound when an instance has been removed, not settled yet. -/
def rebound? (key : String) (index : Nat) (s : Session) : Option Session :=
  (s.registry.remove? key index).map fun removed =>
    (s.shifted removed.1 removed.2).layOut.bind (removed.1.shift s.controls.snapshot)

theorem removeInstance?_eq (key : String) (index : Nat) (s : Session) :
    s.removeInstance? key index = (s.rebound? key index).map fun u => u.reconcile.settle := by
  rw [rebound?, Option.map_map]
  rfl

/-- What is known of a removal that succeeds. -/
theorem Reachable.contracts (h : Reachable s)
    (removed : s.registry.remove? key index = some (r, registry))
    (limit : r.count < Slot.indexLimit) {layout layout' : Layout}
    (fallback : layout'.fallbackMax = layout.fallbackMax) :
    r.Contracts key layout layout' s.registry registry := by
  obtain ⟨e, n, entry, count, dispensable, positive, range, rfl, rfl⟩ :=
    Registry.remove?_eq_some_iff.1 removed
  rw [h.standing.laidOut.stem_eq entry] at limit ⊢
  refine Removal.contracts_shift h.sorted.counts count limit positive range (fun e' entry' => ?_) fallback
  rw [entry] at entry'
  exact Option.some.inj entry' ▸ dispensable

/-- Under a name that is not spared, the value of a control has no part in what is there afterwards. -/
theorem get?_shift_snapshot_of_set? {controls controls' : ControlSet} (distinct : controls.ids.Nodup)
    (range : r.index ≤ r.count) {id : String} (away : ¬r.Spares id) {v : Json}
    (set : controls.set? id v = some controls') :
    Table.get? id (r.shift controls'.snapshot) = Table.get? id (r.shift controls.snapshot) := by
  rw [← Removal.get?_shift_erase range away, erase_snapshot_of_set? distinct set,
    Removal.get?_shift_erase range away]

/-- The form laid out with an instance less. -/
theorem Reachable.layOut_removed (h : Reachable s)
    (removed : s.registry.remove? key index = some (r, registry)) (limit : r.count < Slot.indexLimit) :
    let v := (s.shifted r registry).layOut
    (∀ f ∈ s.tree.fieldsOutside key, r.Spares f.controlId → f ∈ v.tree.fieldsOutside key) ∧
    (∀ other, r.Spares other → other ≠ key → v.registry.count? other = s.registry.count? other) ∧
    ((∀ f ∈ s.tree.fieldsOutside key, r.Spares f.controlId) →
      (∀ g ∈ s.tree.groupsOutside key, r.Spares g.key) →
      v.tree = s.tree.without key r ∧
        ∀ f ∈ s.tree.fields, r.Fate (v.tree.fields.map (·.controlId)) f.controlId) := by
  obtain ⟨stored, before, built⟩ := h.standing.laidOut
  have contracts : r.Contracts key ⟨s.step, stored, s.config.repeatFallbackMax⟩
      ⟨s.step, r.shift s.stored, s.config.repeatFallbackMax⟩ s.registry registry :=
    h.contracts removed limit rfl
  obtain ⟨kept, counts, -, exact⟩ := FormTree.build_contracted built contracts rfl
  exact ⟨kept, fun other spared apart =>
    (counts other spared apart).trans (contracts.same other spared apart), exact⟩

theorem Reachable.rebound? (h : Reachable s) {u : Session} (rebound : s.rebound? key index = some u)
    {n : Nat} (count : s.registry.count? key = some n) :
    ∃ registry, s.registry.remove? key index = some (⟨key ++ "_", index, n⟩, registry) ∧ index ≤ n ∧
      u = (s.shifted ⟨key ++ "_", index, n⟩ registry).layOut.bind
        (Removal.shift ⟨key ++ "_", index, n⟩ s.controls.snapshot) := by
  obtain ⟨⟨r, registry⟩, removed, rfl⟩ := Option.map_eq_some_iff.1 rebound
  obtain ⟨e, m, entry, count', -, -, range, rfl, -⟩ := Registry.remove?_eq_some_iff.1 removed
  obtain rfl := Option.some.inj (count.symm.trans count')
  rw [h.standing.laidOut.stem_eq entry] at removed ⊢
  exact ⟨registry, removed, range, rfl⟩

/-- Removing an instance moves everything with its instance, where no name outside of the group reads as
one inside it. Counts are 32-bit numbers. -/
theorem removeInstance?_moves (h : Reachable s)
    (removed : s.removeInstance? key index = some t) {n : Nat}
    (count : s.registry.count? key = some n) (limit : n < Slot.indexLimit)
    (controls : ∀ f ∈ s.tree.fieldsOutside key, Slot.ofName? (key ++ "_") f.controlId = none)
    (groups : ∀ g ∈ s.tree.groupsOutside key, Slot.ofName? (key ++ "_") g.key = none) :
    let r : Removal := ⟨key ++ "_", index, n⟩
    ∃ u, s.rebound? key index = some u ∧ t = u.reconcile.settle ∧
      t.tree = s.tree.without key r ∧
      (∀ f ∈ s.tree.fields, ∀ id, r.rename? f.controlId = some id →
        u.controls.value? id = s.controls.value? f.controlId) ∧
      (∀ f ∈ s.tree.fields, ∀ id, r.rename? f.controlId = some id →
        ∀ v, Table.get? f.controlId s.selections = some v → Table.get? id t.selections = some v) ∧
      (∀ id v, Table.get? id t.selections = some v →
        ∃ name, r.rename? name = some id ∧ Table.get? name s.selections = some v) ∧
      ∀ name ∈ t.stored.names, ∀ slot, Slot.ofName? r.stem name = some slot → slot.index ≠ n := by
  intro r
  rw [removeInstance?_eq] at removed
  obtain ⟨u, rebound, rfl⟩ := Option.map_eq_some_iff.1 removed
  refine ⟨u, rebound, rfl, ?_⟩
  obtain ⟨registry, taken, range, rfl⟩ := h.rebound? rebound count
  obtain ⟨-, -, exact⟩ := h.layOut_removed taken limit
  obtain ⟨tree, fates⟩ := exact (fun f hf => Removal.spares_of_ofName?_eq_none (controls f hf))
    fun g hg => Removal.spares_of_ofName?_eq_none (groups g hg)
  have distinct := (laidOut_layOut (s.shifted r registry)).distinct
  have snapshot : s.controls.snapshot.Ascending := Table.ascending_ofPairs _
  rw [tree_settle, selections_settle, stored_settle]
  refine ⟨tree, ?_, ?_, ?_, ?_⟩
  · intro f hf id renamed
    obtain ⟨v, value⟩ := h.standing.exists_value hf
    have found := (get?_snapshot h.standing.bound.distinct f.controlId).trans value
    have given := (fates f hf).mem_of_rename? limit range renamed
    have moved := (fates f hf).get?_shift limit range snapshot renamed found
    obtain ⟨f', hf', rfl⟩ := List.mem_map.1 given
    rw [value?_bind distinct _ hf', moved, value]
    rfl
  · intro f hf id renamed v found
    exact (fates f hf).get?_shift limit range h.sorted.selections renamed found
  · intro id v found
    exact Removal.exists_of_get?_shift h.sorted.selections found
  · intro name there slot read
    exact Removal.index_ne_count range there read

def textField (id : String) : Field where
  id := id
  kind := .text
  name := id
  required := false
  dataSource := none
  options := none
  conditions := []
  visibility := ⟨.always, none, .null⟩
  lookup := none
  defaultValue := .null
  isEnabled := true
  order := none
  role := none
  maxOptions := none
  extra := []

/-- A section, which repeats if it has a count to start with. -/
def sectionOf (title : String) (count : Option Nat) (fields : List String)
    (subsections : List Section) : Section :=
  ⟨title, none, none, count.map fun n => ⟨true, none, none, some n, none, []⟩, fields.map textField,
    subsections, [], ⟨.always, none, .null⟩, true, none, []⟩

def guests : Session :=
  .start "" {} ⟨none, [sectionOf "Guests" (some 2) ["name"] [sectionOf "Dishes" (some 1) ["dish"] []],
    sectionOf "Stay" none ["room"] []], [], []⟩

theorem reachable_guests : guests.Reachable := .start ..

/-- The form without the first guest. -/
def oneGuest : Session := (guests.removeInstance? "guests" 1).get (by decide +kernel)

theorem removeInstance?_guests : guests.removeInstance? "guests" 1 = some oneGuest :=
  (Option.some_get _).symm

theorem count?_guests : guests.registry.count? "guests" = some 2 := by decide +kernel

/-- The second guest is now the first. -/
theorem removeInstance?_moves_guests :
    guests.Reachable ∧ guests.removeInstance? "guests" 1 = some oneGuest ∧
      guests.registry.count? "guests" = some 2 ∧ 2 < Slot.indexLimit ∧
      (∀ f ∈ guests.tree.fieldsOutside "guests", Slot.ofName? ("guests" ++ "_") f.controlId = none) ∧
      (∀ g ∈ guests.tree.groupsOutside "guests", Slot.ofName? ("guests" ++ "_") g.key = none) ∧
      oneGuest.tree = guests.tree.without "guests" ⟨"guests_", 1, 2⟩ := by
  have limit : 2 < Slot.indexLimit := by decide +kernel
  have controls : ∀ f ∈ guests.tree.fieldsOutside "guests",
      Slot.ofName? ("guests" ++ "_") f.controlId = none := by decide +kernel
  have groups : ∀ g ∈ guests.tree.groupsOutside "guests",
      Slot.ofName? ("guests" ++ "_") g.key = none := by decide +kernel
  obtain ⟨-, -, -, tree, -⟩ := removeInstance?_moves reachable_guests removeInstance?_guests
    count?_guests limit controls groups
  exact ⟨reachable_guests, removeInstance?_guests, count?_guests, limit, controls, groups, tree⟩

/-- What a removal leaves alone outside of the group: controls and counts under names that do not read as
the removed instance or a later one. Under a name that does, what there was before has no part in what is
there afterwards. -/
theorem removeInstance?_spares (h : Reachable s)
    (removed : s.removeInstance? key index = some t) {n : Nat}
    (count : s.registry.count? key = some n) (limit : n < Slot.indexLimit) :
    let r : Removal := ⟨key ++ "_", index, n⟩
    ∃ registry u, s.registry.remove? key index = some (r, registry) ∧
      s.rebound? key index = some u ∧ t = u.reconcile.settle ∧
      (∀ f ∈ s.tree.fieldsOutside key, r.Spares f.controlId →
        f ∈ u.tree.fieldsOutside key ∧
          u.controls.value? f.controlId = s.controls.value? f.controlId) ∧
      (∀ g ∈ s.tree.groupsOutside key, ∀ other, g.repeatKey = some other → r.Spares other →
        u.registry.count? other = s.registry.count? other) ∧
      (∀ f ∈ s.tree.fieldsOutside key, ¬r.Spares f.controlId →
        ∀ v controls, s.controls.set? f.controlId v = some controls →
          ∃ u', { s with controls }.rebound? key index = some u' ∧
            u'.controls.value? f.controlId = u.controls.value? f.controlId) ∧
      ∀ g ∈ s.tree.groupsOutside key, ∀ other, g.repeatKey = some other → ¬r.Spares other →
        ∀ m, ∃ registry',
          { s.registry with
            counts := Table.modify other (fun _ => m) s.registry.counts }.remove? key index =
              some (r, registry') ∧
            registry'.count? other = registry.count? other := by
  intro r
  rw [removeInstance?_eq] at removed
  obtain ⟨u, rebound, rfl⟩ := Option.map_eq_some_iff.1 removed
  obtain ⟨registry, taken, range, rfl⟩ := h.rebound? rebound count
  obtain ⟨kept, counts, -⟩ := h.layOut_removed taken limit
  have distinct := (laidOut_layOut (s.shifted r registry)).distinct
  have snapshot : s.controls.snapshot.Ascending := Table.ascending_ofPairs _
  have apart : ∀ g ∈ s.tree.groupsOutside key, ∀ other, g.repeatKey = some other → other ≠ key := by
    rintro g hg other repeats rfl
    exact Group.repeatKey_ne_of_listOutside other _ g hg repeats
  refine ⟨registry, _, taken, rebound, rfl, ?_, ?_, ?_, ?_⟩
  · intro f hf spared
    have outside : f ∈ s.tree.fields := Group.listFieldsOutside_subset key _ hf
    have later : f ∈ (s.shifted r registry).layOut.tree.fields :=
      Group.listFieldsOutside_subset key _ (kept f hf spared)
    obtain ⟨v, value⟩ := h.standing.exists_value outside
    have found := (get?_snapshot h.standing.bound.distinct f.controlId).trans value
    refine ⟨kept f hf spared, ?_⟩
    rw [value?_bind distinct _ later, Removal.get?_shift_of_spares limit snapshot range spared,
      found, value]
    rfl
  · intro g hg other repeats spared
    exact counts other spared (apart g hg other repeats)
  · intro f hf away v controls set
    refine ⟨(s.shifted r registry).layOut.bind (r.shift controls.snapshot), ?_, ?_⟩
    · rw [Session.rebound?, taken]
      rfl
    · exact value?_bind_congr distinct
        (get?_shift_snapshot_of_set? h.standing.bound.distinct range away set)
  · intro g hg other repeats away m
    exact Registry.count?_remove?_of_modify taken away (apart g hg other repeats) m

/-- The room stays. -/
theorem removeInstance?_spares_room :
    guests.Reachable ∧ guests.removeInstance? "guests" 1 = some oneGuest ∧
      guests.registry.count? "guests" = some 2 ∧ 2 < Slot.indexLimit ∧
      ∃ u, guests.rebound? "guests" 1 = some u ∧
        u.controls.value? "room" = guests.controls.value? "room" := by
  have limit : 2 < Slot.indexLimit := by decide +kernel
  obtain ⟨-, u, -, rebound, -, kept, -⟩ := removeInstance?_spares reachable_guests removeInstance?_guests
    count?_guests limit
  refine ⟨reachable_guests, removeInstance?_guests, count?_guests, limit, u, rebound, ?_⟩
  obtain ⟨f, hf, named⟩ : ∃ f ∈ guests.tree.fieldsOutside "guests", f.controlId = "room" := by
    decide +kernel
  have apart : Slot.ofName? ("guests" ++ "_") f.controlId = none := by
    rw [named]
    decide +kernel
  rw [← named]
  exact (kept f hf (Removal.spares_of_ofName?_eq_none apart)).2

/-- Contacts, and other contacts under a title that reads as the second of them. -/
def lookalike : Session :=
  (((Session.start "" {} ⟨none, [sectionOf "Contacts" (some 2) ["name"] [],
    sectionOf "Contacts 2" (some 1) ["name"] [sectionOf "Phones" (some 1) ["phone"] []]], [], []⟩).run
      (.setValue "contacts_2_1_name" (.str "Ann"))).run (.addInstance "contacts_2_1_phones"))

/-- The form without the first contact, not settled yet. -/
def fewerContacts : Session := (lookalike.rebound? "contacts" 1).get (by decide +kernel)

/-- Removing a contact takes away the value of another control and an instance of another group. -/
theorem fewerContacts_touches_lookalike :
    lookalike.Reachable ∧ lookalike.rebound? "contacts" 1 = some fewerContacts ∧
      (∃ f ∈ lookalike.tree.fieldsOutside "contacts",
        fewerContacts.controls.value? f.controlId ≠ lookalike.controls.value? f.controlId) ∧
      ∃ g ∈ lookalike.tree.groupsOutside "contacts", ∃ other, g.repeatKey = some other ∧
        fewerContacts.registry.count? other ≠ lookalike.registry.count? other := by
  refine ⟨((Reachable.start ..).run _).run _, (Option.some_get _).symm, ?_, ?_⟩
  · obtain ⟨f, hf, before, after⟩ : ∃ f ∈ lookalike.tree.fieldsOutside "contacts",
        (lookalike.controls.value? f.controlId).any Json.isFilled = true ∧
          (fewerContacts.controls.value? f.controlId).any Json.isFilled = false := by
      decide +kernel
    refine ⟨f, hf, fun same => ?_⟩
    rw [same, before] at after
    cases after
  · obtain ⟨g, hg, repeats⟩ : ∃ g ∈ lookalike.tree.groupsOutside "contacts",
        g.repeatKey = some "contacts_2_1_phones" := by
      decide +kernel
    refine ⟨g, hg, _, repeats, ?_⟩
    decide +kernel

end Session

end Formwork
