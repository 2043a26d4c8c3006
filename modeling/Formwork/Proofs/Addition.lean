import Formwork.Proofs.Addition.Trees
import Formwork.Proofs.Removal
import Formwork.Proofs.Session.Trimming

/-!
# Adding an instance to a repeated group

The form with an instance more is laid out anew, bound with the values that its controls have, and settled.
Where no name is mistaken for one inside the group, and no removal has left counts behind, the new instance
comes last, everything else stays as it is, and in the new instance there is nothing of an instance that was
removed earlier. A removal from another group can leave such a count behind, since it moves counts by the text
of their names.
-/
namespace Formwork

namespace Session

variable {s t : Session} {key : String} {c : Nat}

/-- The form laid out with one more instance of a group. -/
def withInstance (key : String) (s : Session) : Session :=
  { s with registry := s.registry.raised key }.layOut

/-- What it takes to add an instance, and what comes of it. -/
theorem addInstance?_eq_some_iff :
    s.addInstance? key = some t ↔ ∃ e n, s.registry.entry? key = some e ∧ s.registry.count? key = some n ∧
      n < e.bounds.max ∧ t = ((s.withInstance key).bind s.controls.snapshot).reconcile.settle := by
  rw [addInstance?, Option.map_eq_some_iff]
  constructor
  · rintro ⟨registry, added, rfl⟩
    obtain ⟨e, n, entry, count, able, rfl⟩ := Registry.add?_eq_some_iff.1 added
    exact ⟨e, n, entry, count, able, rfl⟩
  · rintro ⟨e, n, entry, count, able, rfl⟩
    exact ⟨_, Registry.add?_eq_some_iff.2 ⟨e, n, entry, count, able, rfl⟩, rfl⟩

/-- A control that is not new is bound with the value that it had. -/
theorem Reachable.value?_bind_snapshot (h : s.Reachable) {u : Session}
    (distinct : (u.tree.fields.map (·.controlId)).Nodup) (subset : s.tree.fields ⊆ u.tree.fields) {id : String}
    {v : Json} (held : s.controls.value? id = some v) :
    (u.bind s.controls.snapshot).controls.value? id = some v := by
  have founded := h.standing.toFounded
  obtain ⟨b, hb, rfl, rfl⟩ := ControlSet.exists_of_value? held
  obtain ⟨f, hf, named⟩ := founded.field_of_mem hb
  rw [← named, value?_bind distinct _ (subset hf), get?_snapshot founded.bound.distinct, named, held]
  rfl

/-- A control that is new is bound with the value of its template. -/
theorem Reachable.value?_bind_new (h : s.Reachable) {u : Session}
    (distinct : (u.tree.fields.map (·.controlId)).Nodup) {f : PlacedField} (hf : f ∈ u.tree.fields)
    (new : ∀ other ∈ s.tree.fields, other.controlId ≠ f.controlId) :
    s.controls.value? f.controlId = none ∧
      (u.bind s.controls.snapshot).controls.value? f.controlId =
        some (f.field.initialValue u.circumstances none) := by
  have founded := h.standing.toFounded
  have unbound : s.controls.value? f.controlId = none := by
    rw [Option.eq_none_iff_forall_ne_some]
    intro v held
    obtain ⟨b, hb, named, -⟩ := ControlSet.exists_of_value? held
    obtain ⟨other, hother, named'⟩ := founded.field_of_mem hb
    exact new other hother (named'.trans named)
  refine ⟨unbound, ?_⟩
  rw [value?_bind distinct _ hf, get?_snapshot founded.bound.distinct, unbound]

/-- Where no name is mistaken and nothing is recorded beyond the last instance, the form is extended. -/
theorem Reachable.extends (h : s.Reachable) {states : List Session} (unmistaken : Unmistaken key states)
    (here : s ∈ states) (trimmed : s.registry.Trimmed key (Bounding key states s.template)) {e : RepeatEntry}
    (entry : s.registry.entry? key = some e) (count : s.registry.count? key = some c)
    (able : c < e.bounds.max) (there : t ∈ states) (template : t.template = s.template) :
    s.registry.Extends key c t.tree t.registry := by
  refine ⟨h.sorted.counts, count, Option.isSome_iff_exists.2 ⟨e, entry⟩, fun e₁ e₂ entry₁ entry₂ => ?_,
    fun e' entry' => ?_, unmistaken.apart t there, fun name slot read last => ?_⟩
  · exact unmistaken.single t there s here template e₂ e₁ entry₂ entry₁
  · rw [entry] at entry'
    exact Option.some.inj entry' ▸ able
  · rw [← Option.not_isSome_iff_eq_none]
    intro recorded
    obtain ⟨c', count', le⟩ := trimmed.slots name recorded slot read
    obtain rfl := Option.some.inj (count.symm.trans count')
    omega

/-- An instance that is added comes last, all else stays as it is, and the new instance starts with what the
template says and the counts that the stored document tells. -/
theorem addInstance?_appends {now : String} {config : Config} {template : Template}
    {operations : List Operation}
    (unmistaken : Unmistaken key
      ((start now config template).states (operations ++ [.addInstance key])))
    (leaves : ∀ x ∈ (start now config template).trail operations, x.1.LeavesNone key x.2) :
    let s := (start now config template).runAll operations
    s.addInstance? key = some t → s.registry.count? key = some c →
      let u := (s.withInstance key).bind s.controls.snapshot
      t = u.reconcile.settle ∧
        ∃ i : GroupInstance, i.index = some (c + 1) ∧ i.Under key t.tree.allGroups ∧
          t.tree = s.tree.adding key i ∧
          (∀ id v, s.controls.value? id = some v → u.controls.value? id = some v) ∧
          (∀ f ∈ i.allFields, s.controls.value? f.controlId = none ∧
            u.controls.value? f.controlId = some (f.field.initialValue s.circumstances none)) ∧
          ∀ g ∈ Group.listGroups i.children, ∀ other, g.repeatKey = some other →
            ∃ e, t.registry.entry? other = some e ∧
              t.registry.count? other = some (e.toldCount s.stored) := by
  intro s added count u
  let first := start now config template
  let states := first.states (operations ++ [.addInstance key])
  let v := s.withInstance key
  have reachable : s.Reachable := (Reachable.start now config template).runAll operations
  have within : first.states operations ⊆ states := states_subset_append first operations _
  have here : s ∈ states := within (runAll_mem_states first operations)
  have there : t ∈ states := by
    have last := runAll_mem_states first (operations ++ [.addInstance key])
    rw [runAll_append] at last
    have next : s.run (.addInstance key) = t := congrArg (Option.getD · s) added
    exact next ▸ last
  obtain ⟨e, n, entry, count', able, after⟩ := addInstance?_eq_some_iff.1 added
  obtain rfl := Option.some.inj (count.symm.trans count')
  obtain ⟨tree, registry, same⟩ : t.tree = v.tree ∧ t.registry = v.registry ∧ t.template = s.template := by
    rw [after, settle_eq]
    exact ⟨rfl, rfl, rfl⟩
  have again := reachable.build_again s.stored
  have built : FormTree.build ⟨s.step, s.stored, s.config.repeatFallbackMax⟩ s.template
      (s.registry.raised key) = (v.tree, v.registry) := rfl
  have extends' := reachable.extends unmistaken here (trimmed_runAll unmistaken within leaves) entry count able
    there same
  rw [tree, registry] at extends' ⊢
  have limit : c + 1 < Slot.indexLimit :=
    unmistaken.limit t there key _ (registry ▸ FormTree.count?_raised extends' again built)
  obtain ⟨i, number, under, adding⟩ := FormTree.build_raised_eq_adding extends' again built limit
  have distinct : (v.tree.fields.map (·.controlId)).Nodup := (laidOut_layOut _).distinct
  have subset : s.tree.fields ⊆ v.tree.fields := by
    rw [adding]
    exact Group.listFields_subset_listAdding key i s.tree.groups
  refine ⟨after, i, number, under, adding, ?_, ?_, ?_⟩
  · exact fun id w held => reachable.value?_bind_snapshot distinct subset held
  · intro f hf
    obtain ⟨g, hg, -, hi⟩ := id under
    refine reachable.value?_bind_new distinct (FormTree.allFields_subset_fields hg hi hf) ?_
    exact FormTree.controlId_ne_of_raised extends' again built limit number under (unmistaken.apart s here) hf
  · intro g hg other repeats
    exact FormTree.count?_of_raised extends' built limit number under hg repeats

/-- Where the group has the same bounds for every template, each session can be looked at by itself. -/
theorem unmistaken_of_forall {states : List Session} (bounds : RepeatBounds)
    (each : ∀ w ∈ states, w.tree.Apart key ∧
      (∀ e ∈ w.registry.entries, e.1 = key → e.2.bounds = bounds) ∧
      ∀ e ∈ w.registry.counts, e.2 < Slot.indexLimit) : Unmistaken key states where
  apart := fun w hw => (each w hw).1
  single := by
    intro v hv w hw _ e e' entry entry'
    rw [(each v hv).2.1 _ (Table.mem_of_get? entry) rfl, (each w hw).2.1 _ (Table.mem_of_get? entry') rfl]
  limit := fun w hw _ _ count => (each w hw).2.2 _ (Table.mem_of_get? count)

/-- The second guest gets a dish, the first one gives one up, and the second one does not come. -/
def cancellations : List Operation :=
  [.addInstance "guests_2_dishes", .removeInstance "guests_1_dishes" 1, .removeInstance "guests" 2]

/-- The form with one guest left. -/
def cancelled : Session := guests.runAll cancellations

def rejoined : Session := (cancelled.addInstance? "guests").get (by decide +kernel)

/-- The second guest has one dish, as all guests have at first. -/
theorem addInstance?_appends_guests :
    Unmistaken "guests" (guests.states (cancellations ++ [.addInstance "guests"])) ∧
      (∀ x ∈ guests.trail cancellations, x.1.LeavesNone "guests" x.2) ∧
      cancelled.addInstance? "guests" = some rejoined ∧ cancelled.registry.count? "guests" = some 1 ∧
      (∃ i : GroupInstance, i.index = some 2 ∧ rejoined.tree = cancelled.tree.adding "guests" i) ∧
      rejoined.registry.count? "guests_2_dishes" = some 1 := by
  have unmistaken : Unmistaken "guests" (guests.states (cancellations ++ [.addInstance "guests"])) :=
    unmistaken_of_forall ⟨0, 99, 2⟩ (by decide +kernel)
  have leaves : ∀ x ∈ guests.trail cancellations, x.1.LeavesNone "guests" x.2 := by decide +kernel
  have added : cancelled.addInstance? "guests" = some rejoined := (Option.some_get _).symm
  have count : cancelled.registry.count? "guests" = some 1 := by decide +kernel
  obtain ⟨-, i, number, -, adding, -⟩ := addInstance?_appends unmistaken leaves added count
  exact ⟨unmistaken, leaves, added, count, ⟨i, number, adding⟩, by decide +kernel⟩

/-- Contacts, and contacts under titles that read as the second and the third of them. -/
def namesakes : Template :=
  ⟨none, [sectionOf "Contacts" (some 3) ["name"] [],
    sectionOf "Contacts 2" (some 1) [] [sectionOf "Phones" (some 1) ["phone"] []],
    sectionOf "Contacts 3" (some 2) [] [sectionOf "Phones" (some 2) ["phone"] []]], [], []⟩

/-- A second phone is added to the one that there is, and then the first contact is removed. -/
def removals : List Operation := [.addInstance "contacts_2_1_phones", .removeInstance "contacts" 1]

def bereft : Session := (start "" {} namesakes).runAll removals

def inherited : Session := (bereft.addInstance? "contacts_2").get (by decide +kernel)

/-- Although no name is mistaken for one inside the group, its new instance gets the phones that were counted in
another group, and not as many as the document tells. -/
theorem addInstance?_inherits_phones :
    Unmistaken "contacts_2" ((start "" {} namesakes).states (removals ++ [.addInstance "contacts_2"])) ∧
      bereft.addInstance? "contacts_2" = some inherited ∧
      bereft.registry.count? "contacts_2" = some 1 ∧
      (∃ g ∈ inherited.tree.allGroups, g.repeatKey = some "contacts_2_2_phones") ∧
      (inherited.registry.entry? "contacts_2_2_phones").map (·.toldCount bereft.stored) = some 1 ∧
      inherited.registry.count? "contacts_2_2_phones" = some 2 :=
  ⟨unmistaken_of_forall ⟨0, 99, 1⟩ (by decide +kernel), (Option.some_get _).symm, by decide +kernel⟩

end Session

end Formwork
