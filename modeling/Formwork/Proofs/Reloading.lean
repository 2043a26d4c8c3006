import Formwork.Proofs.Removal
import Formwork.Proofs.Saving
import Formwork.Proofs.Session.Renewing

/-!
# Saving and loading again

A document that was saved is loaded into a new form. The counts of repeated groups are not in it, so they
are told from names: the same instances are there if no group has fewer of them than by default, something is
named in the last one where it has more, and nothing is named beyond. Then every control that holds data has
its value again.
-/
namespace Formwork

namespace Session

variable {s t : Session} {now : String} {document : Fields}

/-- A saved form has the values that the document has. -/
theorem stored_of_save (founded : s.Founded)
    {store : DocumentKey → Fields → String → Except FormError Unit} {key : DocumentKey}
    (saved : s.save store key = .ok (document, t)) : t.Stored document := by
  obtain ⟨prepared, -, rfl⟩ := save_eq_ok_iff.1 saved
  obtain ⟨-, rfl⟩ := prepareSave_eq_ok_iff.1 prepared
  intro p hp data
  obtain ⟨b, -, -, found⟩ := founded.control hp
  have readings := readings_map_change (fun _ => aside_commit) s.controls
  have committed : (s.commitSaved s.mergedDocument).controls.value? p.controlId =
      s.controls.value? p.controlId := ControlSet.value?_congr readings p.controlId
  rw [committed, ControlSet.value?_of_get? found, get?_mergedDocument founded hp data found]

/-- Fields that hold data are named in the document by the instance in which they are. -/
theorem reaches_of_stored (standing : s.Standing) (stored : s.Stored document) {g : Group}
    (hg : g ∈ s.tree.allGroups) {key : String} (repeats : g.repeatKey = some key) {i : GroupInstance}
    (hi : i ∈ g.instances) {n : Nat} (number : i.index = some n) (small : n < Slot.indexLimit)
    {p : PlacedField} (hp : p ∈ i.allFields) (data : p.field.kind.isDecorative = false) :
    Slot.Reaches (key ++ "_") document.names n := by
  obtain ⟨layout, makes⟩ := standing.laidOut.makes
  obtain ⟨rest, named⟩ := (makes g hg).opens key repeats i hi n number p hp
  have field := FormTree.allFields_subset_fields hg hi hp
  obtain ⟨value, held⟩ := standing.toFounded.exists_value field
  have kept := stored p field data
  rw [held] at kept
  refine ⟨p.controlId, ?_, n, ?_, le_rfl⟩
  · by_contra absent
    rw [Table.get?_eq_none_iff.2 absent] at kept
    cases kept
  · rw [named, Slot.scanIndex?_name (key ++ "_") (s := ⟨n, rest⟩) small]

/-- The counts in a new form that loads a saved document are those that the document tells. They are the
counts of the saved form just if the document numbers its groups, and then the new form looks the same, and
its controls that hold data have the same values, if values are in the spelling of the choices that the
template lists and labels that the form consults are as they are in a new form. An instance with a field that
holds data is told from the document. -/
theorem reopened_of_saved (h : s.Reachable)
    {store : DocumentKey → Fields → String → Except FormError Unit} {key : DocumentKey}
    (saved : s.save store key = .ok (document, t)) {raw : Option String} (read : Document.parse raw = document) (now : String) :
    let r := t.reopened now raw
    (∀ key e, r.registry.entry? key = some e → r.registry.count? key = some (e.toldCount document)) ∧
    (t.SameGroups r ↔ t.Numbered document) ∧
    (t.SameGroups r → r.tree = t.tree ∧ r.repeatGroups = t.repeatGroups ∧
      (t.Spelt → t.LabelsFresh now document →
        ∀ p ∈ t.tree.fields, p.field.kind.isDecorative = false →
          r.controls.value? p.controlId = t.controls.value? p.controlId)) ∧
    (t.Flat → t.Spelt) ∧
    ∀ g ∈ t.tree.allGroups, ∀ key e, g.repeatKey = some key → t.registry.entry? key = some e →
      ∀ i ∈ g.instances, ∀ n < Slot.indexLimit, i.index = some n →
        ∀ p ∈ i.allFields, p.field.kind.isDecorative = false → Slot.Reaches e.stem document.names n := by
  have saves : s.run (.save store key) = t := by
    rw [run, saved]
    rfl
  have reachable : t.Reachable := saves ▸ h.run (.save store key)
  have standing := reachable.standing
  have stored := stored_of_save h.standing.toFounded saved
  obtain ⟨v, renews, reopened⟩ := t.exists_renews now raw
  rw [read] at renews
  have registry : v.reconcile.settle.registry = v.registry := registry_settle _
  have tree : v.reconcile.settle.tree = v.tree := tree_settle _
  have sameGroups : t.SameGroups v.reconcile.settle ↔ t.SameGroups v :=
    ⟨fun same => ⟨registry ▸ same.entries, registry ▸ same.counts⟩,
      fun same => ⟨registry ▸ same.entries, registry ▸ same.counts⟩⟩
  dsimp only
  rw [reopened, registry, tree, sameGroups]
  refine ⟨fun key e => FormTree.count?_of_build renews.built, ?_, ?_, reachable.spelt, ?_⟩
  · exact ⟨fun same => same.numbered standing.laidOut renews,
      fun numbered => (renews.laidOut_of_numbered standing.laidOut numbered).2⟩
  · intro same
    have numbered := same.numbered standing.laidOut renews
    have alike := (renews.laidOut_of_numbered standing.laidOut numbered).1
    refine ⟨alike, (sameGroups.2 same).repeatGroups standing.laidOut, fun spelt labels p hp data => ?_⟩
    exact renews.value?_settle alike standing reachable.stocked reachable.lists spelt stored labels hp data
  · intro g hg key e repeats entry i hi n small number p hp data
    obtain ⟨before, counts, built⟩ := standing.laidOut
    obtain ⟨rfl, m, -, holds⟩ := FormTree.holds_of_build built entry
    rw [holds.stem]
    exact reaches_of_stored standing stored hg repeats hi number small hp data

end Session

namespace Json

/-- A value that equals no other one. -/
def Sole (v : Json) : Prop := ∀ w : Json, w.same v = true → w = v

theorem sole_str (s : String) : (str s).Sole := by
  intro w same
  cases w with
  | str s' => exact congrArg str (eq_of_beq same)
  | _ => cases same

theorem sole_ofTexts (texts : List String) : (ofTexts texts).Sole := by
  have items : ∀ (texts : List String) (items : List Json), sameItems items (texts.map str) = true →
      items = texts.map str := by
    intro texts
    induction texts with
    | nil =>
      intro items same
      cases items with
      | nil => rfl
      | cons v items => cases same
    | cons s texts ih =>
      intro items same
      cases items with
      | nil => cases same
      | cons v items =>
        obtain ⟨first, rest⟩ := Bool.and_eq_true_iff.1 same
        rw [List.map_cons, sole_str s v first, ih items rest]
  intro w same
  cases w with
  | arr others => exact congrArg arr (items texts others same)
  | _ => cases same

theorem eq_of_sameMembers {l m : Fields} (sole : ∀ e ∈ l, e.2.Sole) (same : sameMembers m l = true) :
    m = l := by
  induction l generalizing m with
  | nil =>
    cases m with
    | nil => rfl
    | cons e m => cases same
  | cons e l ih =>
    cases m with
    | nil => cases same
    | cons e' m =>
      obtain ⟨first, sole⟩ := List.forall_mem_cons.1 sole
      simp only [sameMembers, Bool.and_eq_true, beq_iff_eq] at same
      obtain ⟨⟨name, value⟩, rest⟩ := same
      rw [ih sole rest, Prod.ext name (first e'.2 value)]

end Json

namespace Session

def storing (_ : DocumentKey) (_ : Fields) (_ : String) : Except FormError Unit := .ok ()

/-- The form when it is saved with such a host as the document that the text says. -/
def savedAs (raw : String) (s : Session) : Session := s.commitSaved (Document.parse (some raw))

/-- The form can be saved, and the text says the document. -/
def Saves (s : Session) (raw : String) : Prop :=
  s.Reachable ∧ s.save storing ⟨"", ""⟩ = .ok (Document.parse (some raw), s.savedAs raw)

theorem saves_of_same {s : Session} (h : s.Reachable) {raw : String} (l : Fields)
    (sole : ∀ e ∈ l, e.2.Sole)
    (checked : s.violations = [] ∧ Json.sameMembers (Document.parse (some raw)) l = true ∧
      Json.sameMembers s.mergedDocument l = true) : s.Saves raw := by
  obtain ⟨complete, read, held⟩ := checked
  have same : Document.parse (some raw) = s.mergedDocument :=
    (Json.eq_of_sameMembers sole read).trans (Json.eq_of_sameMembers sole held).symm
  exact ⟨h, save_eq_ok_iff.2 ⟨prepareSave_eq_ok_iff.2 ⟨complete, same⟩, rfl, rfl⟩⟩

def listedField (id : String) (options : List Json) : Field :=
  { choiceOf id .null with dataSource := none, options := some options }

def acquainted : Session :=
  (Session.start "" {} ⟨none, [{ sectionOf "Contacts" (some 0) [] [] with
    fields := [textField "name", listedField "kind" [.str "friend", .str "colleague"]] }], [], []⟩).runAll
    [.addInstance "contacts", .setValue "contacts_1_name" (.str "Ann"),
      .setValue "contacts_1_kind" (.str "friend")]

def acquaintance : String :=
  "\x7b\"contacts_1_kind\":\"friend\",\"contacts_1_name\":\"Ann\"\x7d"

def remembered : Session := acquainted.savedAs acquaintance

theorem saves_acquainted : acquainted.Saves acquaintance := by
  have sole : ∀ e ∈ [("contacts_1_kind", Json.str "friend"), ("contacts_1_name", .str "Ann")], e.2.Sole :=
    List.forall_mem_cons.2 ⟨Json.sole_str _, List.forall_mem_singleton.2 (Json.sole_str _)⟩
  exact saves_of_same (.runAll (.start ..) _) _ sole (by decide +kernel)

theorem numbered_remembered : remembered.Numbered (Document.parse (some acquaintance)) := by
  have laidOut : remembered.LaidOut := (saves_acquainted.1.standing.commitSaved _).laidOut
  refine laidOut.numbered_iff.2 fun key e entry => ?_
  have told : ∀ x ∈ remembered.registry.entries, remembered.registry.count? x.1 =
      some (x.2.toldCount (Document.parse (some acquaintance))) := by
    decide +kernel
  exact told _ (Table.mem_of_get? entry)

theorem flat_remembered : remembered.Flat := by
  intro id o found c hc items list
  have texts : ∀ x ∈ remembered.listed.offers, ∀ c ∈ x.2.all, c.value.text?.isSome = true := by
    decide +kernel
  have text := texts _ (Table.mem_of_get? found) c hc
  rw [list] at text
  cases text

/-- The contact is there again, and is the same. -/
theorem reopened_of_saved_acquainted :
    let r := remembered.reopened "" (some acquaintance)
    acquainted.Reachable ∧ acquainted.save storing ⟨"", ""⟩ =
        .ok (Document.parse (some acquaintance), remembered) ∧
      remembered.SameGroups r ∧ remembered.Spelt ∧
      remembered.LabelsFresh "" (Document.parse (some acquaintance)) ∧ r.tree = remembered.tree ∧
      r.repeatGroups = remembered.repeatGroups ∧
      (∀ p ∈ remembered.tree.fields,
        r.controls.value? p.controlId = remembered.controls.value? p.controlId) ∧
      Slot.Reaches "contacts_" (Document.parse (some acquaintance)).names 1 := by
  obtain ⟨reachable, saved⟩ := saves_acquainted
  obtain ⟨-, groups, same, spelt, named⟩ := reopened_of_saved reachable saved rfl ""
  have data : ∀ p ∈ remembered.tree.fields, p.field.kind.isDecorative = false := by decide +kernel
  have labels : remembered.LabelsFresh "" (Document.parse (some acquaintance)) := by
    intro p hp decorative
    rw [data p hp] at decorative
    cases decorative
  obtain ⟨tree, statuses, values⟩ := same (groups.2 numbered_remembered)
  refine ⟨reachable, saved, groups.2 numbered_remembered, spelt flat_remembered, labels, tree, statuses,
    fun p hp => values (spelt flat_remembered) labels p hp (data p hp), ?_⟩
  have stems : (remembered.registry.entry? "contacts").map (·.stem) = some "contacts_" := by
    decide +kernel
  obtain ⟨e, entry, stem⟩ := Option.map_eq_some_iff.1 stems
  obtain ⟨g, hg, repeats, i, hi, number, p, hp⟩ : ∃ g ∈ remembered.tree.allGroups,
      g.repeatKey = some "contacts" ∧ ∃ i ∈ g.instances, i.index = some 1 ∧ ∃ p ∈ i.allFields,
        p.field.kind.isDecorative = false := by
    decide +kernel
  have limit : 1 < Slot.indexLimit := by decide +kernel
  rw [← stem]
  exact named g hg "contacts" e repeats entry i hi 1 limit number p hp.1 hp.2

def groupCounts (s : Session) : List (String × Nat) := s.repeatGroups.map fun g => (g.key, g.count)

def fewerThanDefault : Session :=
  (Session.start "" {} ⟨none, [sectionOf "Contacts" (some 2) ["name"] []], [], []⟩).runAll
    [.removeInstance "contacts" 2, .setValue "contacts_1_name" (.str "Ann")]

def labelField (id text : String) : Field :=
  { textField id with kind := .label, defaultValue := .str text }

/-- A form with one more notice than by default, which holds nothing. -/
def noticed : Session :=
  (Session.start "" {} ⟨none, [{ sectionOf "Notices" (some 1) [] [] with
    fields := [labelField "notice" "Keep out"] }], [], []⟩).runAll [.addInstance "notices"]

/-- A form without contacts and with another group, whose name reads as the second of them. -/
def namesake : Session :=
  (Session.start "" {} ⟨none, [sectionOf "Contacts" (some 0) ["name"] [],
    sectionOf "Contacts 2" (some 1) ["name"] []], [], []⟩).runAll
    [.setValue "contacts_2_1_name" (.str "Ann")]

/-- A form with a detail that is in view because the text of a label is another one than in a new form. -/
def relabelled : Session :=
  (Session.start "" {} ⟨none, [{ sectionOf "Notes" none [] [] with
    fields := [labelField "kind" "short",
      { textField "detail" with conditions := [⟨some "kind", .equals, .str "long", .and⟩] }] }],
      [], []⟩).runAll [.setValue "kind" (.str "long"), .setValue "detail" (.str "blue")]

/-- A form with a value that is one step closer to the spelling of its choices, but not all the way. -/
def halfSpelt : Session :=
  (Session.start "" {} ⟨none, [{ sectionOf "Clothes" none [] [] with
    fields := [listedField "size" [.arr [.str "1"], Json.ofNat 1]] }], [], []⟩).runAll
    [.setValue "size" (.obj [("value", .arr [.str "1"])])]

/-- A saved document does not bring back fewer instances than by default, nor instances in which it names
nothing, and it brings back instances that something else seems to name. A value is lost where it is in view
only because a label was changed, and it changes where it is not in its last spelling yet. -/
theorem reopened_ne_saved :
    (∃ raw, fewerThanDefault.Saves raw ∧
      let t := fewerThanDefault.savedAs raw
      t.groupCounts = [("contacts", 1)] ∧
        (t.reopened "" (some raw)).groupCounts = [("contacts", 2)]) ∧
    (∃ raw, noticed.Saves raw ∧
      let t := noticed.savedAs raw
      t.groupCounts = [("notices", 2)] ∧ (t.reopened "" (some raw)).groupCounts = [("notices", 1)]) ∧
    (∃ raw, namesake.Saves raw ∧
      let t := namesake.savedAs raw
      t.groupCounts = [("contacts", 0), ("contacts_2", 1)] ∧
        (t.reopened "" (some raw)).groupCounts = [("contacts", 2), ("contacts_2", 1)]) ∧
    (∃ raw, relabelled.Saves raw ∧
      let t := relabelled.savedAs raw
      (t.controls.value? "detail").map Json.isFilled = some true ∧
        ((t.reopened "" (some raw)).controls.value? "detail").map Json.isFilled = some false) ∧
    (∃ raw, halfSpelt.Saves raw ∧
      let t := halfSpelt.savedAs raw
      (t.controls.value? "size").map (Json.same (.arr [.str "1"])) = some true ∧
        ((t.reopened "" (some raw)).controls.value? "size").map
          (Json.same (.arr [Json.ofNat 1])) = some true) := by
  refine ⟨⟨"\x7b\"contacts_1_name\":\"Ann\"\x7d", ?_, by decide +kernel⟩,
    ⟨"\x7b\x7d", ?_, by decide +kernel⟩,
    ⟨"\x7b\"contacts_2_1_name\":\"Ann\"\x7d", ?_, by decide +kernel⟩,
    ⟨"\x7b\"detail\":\"blue\"\x7d", ?_, by decide +kernel⟩,
    ⟨"\x7b\"size\":[\"1\"]\x7d", ?_, by decide +kernel⟩⟩
  · exact saves_of_same (.runAll (.start ..) _) [("contacts_1_name", .str "Ann")]
      (List.forall_mem_singleton.2 (Json.sole_str _)) (by decide +kernel)
  · exact saves_of_same (.runAll (.start ..) _) [] (List.forall_mem_nil _) (by decide +kernel)
  · exact saves_of_same (.runAll (.start ..) _) [("contacts_2_1_name", .str "Ann")]
      (List.forall_mem_singleton.2 (Json.sole_str _)) (by decide +kernel)
  · exact saves_of_same (.runAll (.start ..) _) [("detail", .str "blue")]
      (List.forall_mem_singleton.2 (Json.sole_str _)) (by decide +kernel)
  · exact saves_of_same (.runAll (.start ..) _) [("size", .ofTexts ["1"])]
      (List.forall_mem_singleton.2 (Json.sole_ofTexts _)) (by decide +kernel)

end Session

end Formwork
