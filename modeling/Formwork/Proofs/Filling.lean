import Formwork.Proofs.Layout.Scopes
import Formwork.Proofs.Refusals

/-!
# What a lookup fills in

A lookup gives values to its own control and to the ones that its pairs mean from where it stands. Inside an
instance of a repeated group a pair means a control of this instance as long as one of the instances around the
field, from this one inwards, has a control for it. Otherwise it means what it means from where the group
stands, and that may be a control in another instance.
-/
namespace Formwork

/-- Names in different slots are different. -/
theorem Slot.index_eq_of_name_eq {stem : String} {s t : Slot} (h : name stem s = name stem t) :
    s.index = t.index := by
  rw [name_eq, name_eq, ← String.toList_inj, String.toList_append, String.toList_append,
    String.toList_ofList, String.toList_ofList] at h
  obtain ⟨numerals, -⟩ := eq_of_append_underscore ne_underscore_of_mem_numeral
    ne_underscore_of_mem_numeral (List.append_cancel_left h)
  rw [← Text.readDigits_numeral s.index, numerals, Text.readDigits_numeral]

namespace ControlSet

@[simp] theorem names_modify (id : String) (f : Control → Control) (s : ControlSet) :
    (s.modify id f).map BoundControl.names = s.map BoundControl.names :=
  map_modify (fun _ => rfl) id s

/-- References are resolved by the names of controls, which no value changes. -/
@[simp] theorem resolve?_modify (id : String) (f : Control → Control) (s : ControlSet) (raw : String)
    (scope : Scope) : (s.modify id f).resolve? raw scope = s.resolve? raw scope :=
  resolve?_of_names (names_modify id f s) raw scope

/-- A reference from further in means a control of one of the inner instances, or else what it means from
further out. -/
theorem resolve?_append_cases (raw : String) (outer inner : Scope) (s : ControlSet) :
    (∃ frame ∈ inner, frame.identifier raw ∈ s.ids ∧
        s.resolve? raw (outer ++ inner) = some (frame.identifier raw)) ∨
      (∀ frame ∈ inner, frame.identifier raw ∉ s.ids) ∧
        s.resolve? raw (outer ++ inner) = s.resolve? raw outer := by
  simp only [← has_eq_true_iff]
  unfold resolve?
  rw [List.reverse_append, List.find?_append]
  cases found : inner.reverse.find? fun f => s.has (f.identifier raw) with
  | some frame =>
    refine .inl ⟨frame, List.mem_reverse.1 (List.mem_of_find?_eq_some found), ?_, rfl⟩
    simpa using List.find?_some found
  | none =>
    refine .inr ⟨fun frame hframe => ?_, rfl⟩
    exact List.find?_eq_none.1 found frame (List.mem_reverse.2 hframe)

end ControlSet

namespace Lookup

variable {l : Lookup} {field : PlacedField} {scope : Scope} {value : FillPair → Json} {s : ControlSet}
  {id : String}

def fillOne (scope : Scope) (value : FillPair → Json) (s : ControlSet) (pair : FillPair) : ControlSet :=
  match s.resolve? pair.target scope with
  | some id => s.modify id (Control.set (value pair))
  | none => s

theorem fillFrom_eq_foldl : l.fillFrom scope value s = l.fill.foldl (fillOne scope value) s := rfl

@[simp] theorem resolve?_fillOne (raw : String) (scope' : Scope) (pair : FillPair) :
    (fillOne scope value s pair).resolve? raw scope' = s.resolve? raw scope' := by
  unfold fillOne
  split
  · exact ControlSet.resolve?_modify ..
  · rfl

theorem get?_fillOne_of_ne {pair : FillPair} (h : s.resolve? pair.target scope ≠ some id) :
    (fillOne scope value s pair).get? id = s.get? id := by
  unfold fillOne
  split
  · rename_i other meant
    refine ControlSet.get?_modify_of_ne ?_ _ _
    rintro rfl
    exact h meant
  · rfl

theorem value?_fillOne {pair : FillPair} (h : s.resolve? pair.target scope = some id) :
    (fillOne scope value s pair).value? id = some (value pair) := by
  rw [fillOne, h]
  exact ControlSet.value?_modify_set (ControlSet.mem_ids_of_resolve? h) (value pair)

/-- Whatever no pair means is left alone. -/
theorem get?_foldl_fillOne {pairs : List FillPair}
    (h : ∀ pair ∈ pairs, s.resolve? pair.target scope ≠ some id) :
    (pairs.foldl (fillOne scope value) s).get? id = s.get? id := by
  induction pairs generalizing s with
  | nil => rfl
  | cons pair pairs ih =>
    obtain ⟨first, rest⟩ := List.forall_mem_cons.1 h
    rw [List.foldl_cons, ih (by simpa using rest), get?_fillOne_of_ne first]

/-- What is meant by pairs has the value for one of them in the end. -/
theorem value?_foldl_fillOne {pairs : List FillPair}
    (h : ∃ pair ∈ pairs, s.resolve? pair.target scope = some id) :
    ∃ pair ∈ pairs, s.resolve? pair.target scope = some id ∧
      (pairs.foldl (fillOne scope value) s).value? id = some (value pair) := by
  induction pairs generalizing s with
  | nil => simp at h
  | cons pair pairs ih =>
    rw [List.foldl_cons]
    by_cases later : ∃ pair ∈ pairs, s.resolve? pair.target scope = some id
    · obtain ⟨pair', hpair, meant, filled⟩ := ih (s := fillOne scope value s pair) (by simpa using later)
      exact ⟨pair', List.mem_cons_of_mem _ hpair, by simpa using meant, filled⟩
    · have first : s.resolve? pair.target scope = some id := by
        obtain ⟨pair', hpair, meant⟩ := h
        rcases List.mem_cons.1 hpair with rfl | hpair
        · exact meant
        · exact absurd ⟨pair', hpair, meant⟩ later
      have rest : ∀ pair' ∈ pairs, s.resolve? pair'.target scope ≠ some id :=
        fun pair' hpair meant => later ⟨pair', hpair, meant⟩
      refine ⟨pair, List.mem_cons_self, first, ?_⟩
      rw [ControlSet.value?, get?_foldl_fillOne (by simpa using rest)]
      exact value?_fillOne first

/-- The identifiers of the controls that get a value: the field, and whatever the pairs mean from where it is. -/
def written (l : Lookup) (field : PlacedField) (s : ControlSet) : List String :=
  field.controlId :: l.fill.filterMap fun pair => s.resolve? pair.target field.scope

/-- The value is what the field gets, or what a pair gets that means the control. -/
def Gives (l : Lookup) (field : PlacedField) (s : ControlSet) (v : Json) (value : FillPair → Json)
    (id : String) (w : Json) : Prop :=
  id = field.controlId ∧ w = v ∨
    ∃ pair ∈ l.fill, s.resolve? pair.target field.scope = some id ∧ w = value pair

theorem mem_written_iff : id ∈ l.written field s ↔ id = field.controlId ∨
    ∃ pair ∈ l.fill, s.resolve? pair.target field.scope = some id := by
  rw [written, List.mem_cons, List.mem_filterMap]

/-- Entering a value in a field that is there, and filling others along with it, writes what is given to the
controls that are written and leaves all others alone. -/
theorem exists_enter (l : Lookup) (there : field.controlId ∈ s.ids) (v : Json) (value : FillPair → Json) :
    ∃ t, (s.set? field.controlId v).map (l.fillFrom field.scope value) = some t ∧
      (∀ id, id ∉ l.written field s → t.get? id = s.get? id) ∧
      ∀ id ∈ l.written field s, ∃ w, t.value? id = some w ∧ l.Gives field s v value id w := by
  rw [ControlSet.set?_eq_some_iff.2 ⟨there, rfl⟩, Option.map_some]
  simp only [mem_written_iff, fillFrom_eq_foldl]
  refine ⟨_, rfl, fun id h => ?_, fun id h => ?_⟩
  · obtain ⟨other, unmeant⟩ := not_or.1 h
    rw [get?_foldl_fillOne (by simpa using unmeant), ControlSet.get?_modify_of_ne other]
  · by_cases meant : ∃ pair ∈ l.fill, s.resolve? pair.target field.scope = some id
    · have entered : ∃ pair ∈ l.fill, (s.modify field.controlId (Control.set v)).resolve? pair.target
          field.scope = some id := by
        simpa using meant
      obtain ⟨pair, hpair, target, filled⟩ := value?_foldl_fillOne entered
      exact ⟨_, filled, .inr ⟨pair, hpair, by simpa using target, rfl⟩⟩
    · obtain rfl := h.resolve_right meant
      refine ⟨v, ?_, .inl ⟨rfl, rfl⟩⟩
      rw [ControlSet.value?, get?_foldl_fillOne (by simpa using meant)]
      exact ControlSet.value?_modify_set there v

/-- Taking a selection back empties what is written, and leaves all others alone. -/
theorem exists_clear? (l : Lookup) (there : field.controlId ∈ s.ids) :
    ∃ t, l.clear? field s = some t ∧ (∀ id, id ∉ l.written field s → t.get? id = s.get? id) ∧
      ∀ id ∈ l.written field s, t.value? id = some .null := by
  obtain ⟨t, cleared, kept, given⟩ := l.exists_enter there .null fun _ => .null
  refine ⟨t, cleared, kept, fun id h => ?_⟩
  obtain ⟨w, filled, ⟨-, rfl⟩ | ⟨pair, -, -, rfl⟩⟩ := given id h
  · exact filled
  · exact filled

end Lookup

def GroupInstance.Has (i : GroupInstance) (id : String) : Prop := ∃ f ∈ i.allFields, f.controlId = id

/-- The control is in another instance of the group. Since instances are numbered, that is one with another
number. -/
def Group.HasElsewhere (g : Group) (i : GroupInstance) (id : String) : Prop :=
  ∃ j ∈ g.instances, j.index ≠ i.index ∧ j.Has id

instance (i : GroupInstance) (id : String) : Decidable (i.Has id) :=
  inferInstanceAs (Decidable (∃ f ∈ i.allFields, f.controlId = id))

instance (g : Group) (i : GroupInstance) (id : String) : Decidable (g.HasElsewhere i id) :=
  inferInstanceAs (Decidable (∃ j ∈ g.instances, j.index ≠ i.index ∧ j.Has id))

namespace Layout.Makes

variable {layout : Layout} {g : Group} {key : String} {i : GroupInstance} {n : Nat}

/-- What is named by an instance is in no other one. -/
theorem not_hasElsewhere (h : layout.Makes g) (repeats : g.repeatKey = some key)
    (number : i.index = some n) (rest : String) :
    ¬g.HasElsewhere i (Slot.name (key ++ "_") ⟨n, rest⟩) := by
  rintro ⟨j, hj, other, f, hf, named⟩
  obtain ⟨m, number', -⟩ := h.within repeats hj hf
  obtain ⟨rest', named'⟩ := h.opens key repeats j hj m number' f hf
  have same : m = n := Slot.index_eq_of_name_eq (named'.symm.trans named)
  exact other (by rw [number, number', same])

/-- A reference from inside an instance means a control in another one just if none of the instances around it,
from this one inwards, has a control for it, and if it means such a control where the group stands. -/
theorem resolve?_hasElsewhere_iff (h : layout.Makes g) (repeats : g.repeatKey = some key)
    (number : i.index = some n) {inner : Scope}
    (stems : ∀ frame ∈ inner, ∃ rest, frame.stem = (Blueprint.instanceScope g.scope key n).opening ++ rest)
    (raw : String) (s : ControlSet) (id : String) :
    s.resolve? raw (g.scope ++ ⟨key ++ "_", n⟩ :: inner) = some id ∧ g.HasElsewhere i id ↔
      (∀ frame ∈ (⟨key ++ "_", n⟩ :: inner : Scope), frame.identifier raw ∉ s.ids) ∧
        s.resolve? raw g.scope = some id ∧ g.HasElsewhere i id := by
  have named : ∀ frame ∈ (⟨key ++ "_", n⟩ :: inner : Scope),
      ∃ rest, frame.identifier raw = Slot.name (key ++ "_") ⟨n, rest⟩ := by
    intro frame hframe
    rcases List.mem_cons.1 hframe with rfl | hframe
    · exact ⟨Identifier.ofRaw raw, rfl⟩
    · obtain ⟨rest, stem⟩ := stems frame hframe
      refine ⟨rest ++ Text.ofNat frame.index ++ "_" ++ Identifier.ofRaw raw, ?_⟩
      rw [Frame.identifier, Frame.opening, stem, Blueprint.opening_instanceScope, Slot.name, Frame.opening]
      simp only [String.append_assoc]
  rcases s.resolve?_append_cases raw g.scope (⟨key ++ "_", n⟩ :: inner) with
    ⟨frame, hframe, there, meant⟩ | ⟨absent, meant⟩
  · constructor
    · rintro ⟨target, elsewhere⟩
      obtain rfl := Option.some.inj (meant.symm.trans target)
      obtain ⟨rest, same⟩ := named frame hframe
      exact absurd (same ▸ elsewhere) (h.not_hasElsewhere repeats number rest)
    · rintro ⟨absent, -⟩
      exact absurd there (absent frame hframe)
  · rw [meant]
    exact ⟨fun outside => ⟨absent, outside⟩, fun outside => outside.2⟩

end Layout.Makes

namespace Session

variable {s : Session} {id : String}

/-- What a lookup writes to from inside an instance of a repeated group, and when this is in another instance. -/
theorem Reachable.written_hasElsewhere_iff (h : Reachable s) {field : PlacedField} {lookup : Lookup}
    (found : s.lookup id = .ok (field, lookup)) {g : Group} (hg : g ∈ s.tree.allGroups) {key : String}
    (repeats : g.repeatKey = some key) {i : GroupInstance} (hi : i ∈ g.instances) (has : i.Has id) :
    (∀ selected, ∃ controls, lookup.select? s.config field selected s.controls = some controls ∧
        (∀ other, other ∉ lookup.written field s.controls → controls.get? other = s.controls.get? other) ∧
        ∀ other ∈ lookup.written field s.controls, ∃ v, controls.value? other = some v ∧
          lookup.Gives field s.controls (lookup.storedValue s.config selected)
            (fun pair => (selected.atPath? pair.source).getD .null) other v) ∧
      (∃ controls, lookup.clear? field s.controls = some controls ∧
        (∀ other, other ∉ lookup.written field s.controls → controls.get? other = s.controls.get? other) ∧
        ∀ other ∈ lookup.written field s.controls, controls.value? other = some .null) ∧
      ∃ n inner, i.index = some n ∧ field.scope = g.scope ++ ⟨key ++ "_", n⟩ :: inner ∧
        ∀ other, other ∈ lookup.written field s.controls ∧ g.HasElsewhere i other ↔
          ∃ pair ∈ lookup.fill,
            (∀ frame ∈ (⟨key ++ "_", n⟩ :: inner : Scope),
              frame.identifier pair.target ∉ s.controls.ids) ∧
            s.controls.resolve? pair.target g.scope = some other ∧ g.HasElsewhere i other := by
  have laidOut := h.standing.laidOut
  obtain ⟨layout, made⟩ := laidOut.makes
  have makes := made g hg
  have there := h.mem_ids_of_lookup found
  obtain ⟨listed, rfl⟩ := FormTree.mem_fields_of_field? (field?_of_lookup found)
  obtain ⟨f, inside, named⟩ := has
  obtain rfl := List.inj_on_of_nodup_map laidOut.distinct
    (FormTree.allFields_subset_fields hg hi inside) listed named
  obtain ⟨n, number, inner, scope, stems⟩ := makes.within repeats hi inside
  rw [Blueprint.instanceScope, List.append_assoc, List.singleton_append] at scope
  refine ⟨fun selected => lookup.exists_enter there _ _, lookup.exists_clear? there, n, inner, number, scope,
    fun other => ?_⟩
  have meant := fun raw => makes.resolve?_hasElsewhere_iff repeats number stems raw s.controls other
  rw [Lookup.mem_written_iff, scope]
  constructor
  · rintro ⟨rfl | ⟨pair, hpair, target⟩, elsewhere⟩
    · obtain ⟨rest, own⟩ := makes.opens key repeats i hi n number f inside
      exact absurd (own ▸ elsewhere) (makes.not_hasElsewhere repeats number rest)
    · exact ⟨pair, hpair, (meant pair.target).1 ⟨target, elsewhere⟩⟩
  · rintro ⟨pair, hpair, outside⟩
    obtain ⟨target, elsewhere⟩ := (meant pair.target).2 outside
    exact ⟨.inr ⟨pair, hpair, target⟩, elsewhere⟩

/-- Two contacts. A customer looked up for one of them fills in a phone, and the phones are listed below. -/
def phoneBook : Session :=
  .start "" {} ⟨none, [{ sectionOf "Contacts" (some 2) [] [sectionOf "Phones" (some 1) ["phone"] []] with
    fields := [{ textField "customer" with
      kind := .search
      lookup := some ⟨some "customer", none, none, [], [⟨"phone", "phone"⟩], none⟩ }] }], [], []⟩

theorem reachable_phoneBook : phoneBook.Reachable := .start ..

theorem lookup_of_mem_toOption {found : PlacedField × Lookup} (h : found ∈ (s.lookup id).toOption) :
    s.lookup id = .ok found := by
  cases made : s.lookup id with
  | error e =>
    rw [made] at h
    cases h
  | ok other =>
    rw [made] at h
    rw [Option.some.inj h]

/-- What is looked up for the first contact fills in nothing in the second one. -/
theorem written_hasElsewhere_iff_phoneBook :
    phoneBook.Reachable ∧ ∃ field lookup, phoneBook.lookup "contacts_1_customer" = .ok (field, lookup) ∧
      ∃ g ∈ phoneBook.tree.allGroups, g.repeatKey = some "contacts" ∧
        ∃ i ∈ g.instances, i.Has "contacts_1_customer" ∧
          ∀ other ∈ lookup.written field phoneBook.controls, ¬g.HasElsewhere i other := by
  obtain ⟨⟨field, lookup⟩, there, g, hg, repeats, i, hi, has, inside⟩ :
      ∃ found ∈ (phoneBook.lookup "contacts_1_customer").toOption,
        ∃ g ∈ phoneBook.tree.allGroups, g.repeatKey = some "contacts" ∧
          ∃ i ∈ g.instances, i.Has "contacts_1_customer" ∧
            ∀ pair ∈ found.2.fill, ∀ other ∈ phoneBook.controls.resolve? pair.target g.scope,
              ¬g.HasElsewhere i other := by
    decide +kernel
  have found := lookup_of_mem_toOption there
  obtain ⟨-, -, n, inner, -, -, strays⟩ :=
    reachable_phoneBook.written_hasElsewhere_iff found hg repeats hi has
  refine ⟨reachable_phoneBook, field, lookup, found, g, hg, repeats, i, hi, has, ?_⟩
  intro other written elsewhere
  obtain ⟨pair, hpair, -, meant, -⟩ := (strays other).1 ⟨written, elsewhere⟩
  exact inside pair hpair other meant elsewhere

def acme : Json := Json.object [("name", .str "Acme"), ("phone", .str "123")]

/-- What is looked up for the second contact fills in a phone of the first one. -/
theorem phoneBook_fills_elsewhere :
    phoneBook.Reachable ∧ ∃ field lookup, phoneBook.lookup "contacts_2_customer" = .ok (field, lookup) ∧
      ∃ g ∈ phoneBook.tree.allGroups, g.repeatKey = some "contacts" ∧
        ∃ i ∈ g.instances, i.Has "contacts_2_customer" ∧
          g.HasElsewhere i "contacts_1_phones_1_phone" ∧
          ∃ controls, lookup.select? phoneBook.config field acme phoneBook.controls = some controls ∧
            controls.value? "contacts_1_phones_1_phone" ≠
              phoneBook.controls.value? "contacts_1_phones_1_phone" := by
  obtain ⟨⟨field, lookup⟩, there, g, hg, repeats, i, hi, has, elsewhere, controls, selects, after, before⟩ :
      ∃ found ∈ (phoneBook.lookup "contacts_2_customer").toOption,
        ∃ g ∈ phoneBook.tree.allGroups, g.repeatKey = some "contacts" ∧
          ∃ i ∈ g.instances, i.Has "contacts_2_customer" ∧
            g.HasElsewhere i "contacts_1_phones_1_phone" ∧
            ∃ controls ∈ found.2.select? phoneBook.config found.1 acme phoneBook.controls,
              (controls.value? "contacts_1_phones_1_phone").any Json.isFilled = true ∧
                (phoneBook.controls.value? "contacts_1_phones_1_phone").any Json.isFilled = false := by
    decide +kernel
  refine ⟨reachable_phoneBook, field, lookup, lookup_of_mem_toOption there, g, hg, repeats, i, hi, has,
    elsewhere, controls, selects, fun same => ?_⟩
  rw [same, before] at after
  cases after

end Session

end Formwork
