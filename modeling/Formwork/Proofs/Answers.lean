import Formwork.Proofs.Answers.Determined
import Formwork.Proofs.Answers.Subsiding
import Formwork.Proofs.Removal

/-!
# Answers one by one and all at once

The choices that a form waits for may be delivered as they come in, and the form is settled after each of
them, or they are all taken before it is settled. Both end in the same form, whatever the order, if nothing
hangs on what is lost meanwhile: bringing values into the spelling of the choices keeps their shape and
whether they count, and no control comes into view by what settling takes away.
-/
namespace Formwork.Session

variable {s u g t : Session} {answers : String → Response}

def receiveAll (answers : String → Response) (requests : List ChoiceRequest) (s : Session) : Session :=
  requests.foldl (fun t r => (t.receiveChoices r.generation r.source (answers r.source)).2) s

/-- The form with the answers to all that is asked for, and with its values in the spelling of all these
choices, but not settled yet. -/
def withAnswers (answers : String → Response) (s : Session) : Session :=
  { s.askForChoices.2 with
    catalog := s.askForChoices.2.catalog.takeAll s.config answers s.catalog.wanted }.reconcile

/-- Taking all the answers at once leads to the form with these answers, settled. -/
theorem resolveChoices_eq (answers : String → Response) (s : Session) :
    (s.resolveChoices fun source _ => answers source).2 = (s.withAnswers answers).settle := by
  have taken := foldl_answered s.config answers s.template.moduleHints s.catalog.wanted
    s.askForChoices.2.catalog
  unfold resolveChoices withAnswers
  rw [← taken]
  rfl

/-- Settling changes of the catalog only the choices on offer. -/
theorem Stocked.shut_settle (h : s.Stocked) : s.settle.catalog.shut = s.catalog.shut := by
  obtain ⟨offers, same, shut⟩ := s.catalog_settle
  exact Catalog.shut_eq_of_offers same h.sound.offers h.settle.sound.offers shut

/-- What is left to do when an answer that is expected arrives. -/
theorem receiveChoices_expected (source : String) (response : Response) (s : Session) :
    (s.receiveChoices s.catalog.generation source response).2 =
      { s with catalog := s.catalog.take s.config source response }.reconcile.settle := by
  simp [receiveChoices, Catalog.receive?, reported]

theorem Reachable.receiveAll (h : s.Reachable) (answers : String → Response)
    (requests : List ChoiceRequest) : (s.receiveAll answers requests).Reachable := by
  induction requests generalizing s with
  | nil => exact h
  | cons r requests ih =>
    exact ih (h.run (.receiveChoices r.generation r.source (answers r.source)))

/-- What holds once some of the answers have arrived for a form that has asked for them: it is between the
form with all the answers and its bound. -/
structure Underway (asked : Session) (answers : String → Response) (u g : Session)
    (requests : List ChoiceRequest) (t : Session) : Prop where
  frame : t.frame = asked.frame
  taken : t.catalog.shut =
    (asked.catalog.takeAll asked.config answers (requests.map ChoiceRequest.source)).shut
  bounded : Bounded u g t
  spelled : requests ≠ [] → ∀ b ∈ t.controls, t.catalog.Spelled b

/-- Settling leaves all values in the spelling of the choices that have arrived. -/
theorem spelled_settle_reconcile (founded : s.Founded) (steady : ∀ b ∈ s.controls, s.catalog.Steady b) :
    ∀ b ∈ s.reconcile.settle.controls, s.reconcile.settle.catalog.Spelled b := by
  have settled := Catalog.spelled_of_fades (Catalog.spelled_reconcile steady)
    founded.reconcile.bound.settle_fades
  exact fun b hb => (settled b hb).of_shut s.reconcile.shut?_settle

/-- The form stays between the two when one more answer arrives. -/
theorem Underway.step {asked : Session} {requests : List ChoiceRequest}
    (h : Underway asked answers u g requests t) (reachable : t.Reachable) (bounds : Bounds u g)
    (withers : u.Withers) {r : ChoiceRequest} (expected : r.generation = asked.catalog.generation)
    (within : ∀ d : Catalog, d.shut = (asked.catalog.takeAll asked.config answers
      ((requests ++ [r]).map ChoiceRequest.source)).shut → d.Within u.catalog) :
    Underway asked answers u g (requests ++ [r])
      (t.receiveChoices r.generation r.source (answers r.source)).2 := by
  have generation : t.catalog.generation = asked.catalog.generation := by
    have told := congrArg Catalog.generation h.taken
    rw [← Catalog.generation_takeAll asked.config answers _ asked.catalog]
    exact told
  have config : t.config = asked.config := (of_frame h.frame).1
  have shut : (t.catalog.take t.config r.source (answers r.source)).shut =
      (asked.catalog.takeAll asked.config answers
        ((requests ++ [r]).map ChoiceRequest.source)).shut := by
    rw [Catalog.shut_take, h.taken, ← Catalog.shut_take, config, List.map_append, Catalog.takeAll,
      Catalog.takeAll, List.foldl_append]
    rfl
  rw [expected, ← generation, receiveChoices_expected]
  refine ⟨?_, ?_, ?_, fun _ => ?_⟩
  · exact (frame_settle _).trans h.frame
  · have stocked := reachable.stocked.take r.source (answers r.source)
    exact stocked.reconcile.shut_settle.trans shut
  · have taken : Bounded u g
        { t with catalog := t.catalog.take t.config r.source (answers r.source) } :=
      ⟨h.bounded.config, h.bounded.tree, h.bounded.dependencies, within _ shut,
        h.bounded.between.steady, h.bounded.between.above, h.bounded.between.below⟩
    exact taken.reconcile.settle bounds withers
  · refine spelled_settle_reconcile (reachable.standing.replace rfl _ t.selections) ?_
    exact fun b hb => (h.bounded.between.steady b hb).within (within _ shut)

/-- However many answers have arrived, the form is between the two: the last one arrives at the form that the
others have left. -/
theorem Underway.receiveAll {asked : Session} {requests : List ChoiceRequest}
    (start : Underway asked answers u g [] asked) (reachable : asked.Reachable) (bounds : Bounds u g)
    (withers : u.Withers) (expected : ∀ r ∈ requests, r.generation = asked.catalog.generation)
    (within : ∀ part ⊆ requests, ∀ d : Catalog, d.shut = (asked.catalog.takeAll asked.config answers
      (part.map ChoiceRequest.source)).shut → d.Within u.catalog) :
    Underway asked answers u g requests (asked.receiveAll answers requests) := by
  induction requests using List.reverseRec with
  | nil => exact start
  | append_singleton requests r ih =>
    have before : requests ⊆ requests ++ [r] := List.subset_append_left requests [r]
    have underway := ih (fun r hr => expected r (before hr))
      (fun part hpart => within part (List.Subset.trans hpart before))
    have last : asked.receiveAll answers (requests ++ [r]) =
        ((asked.receiveAll answers requests).receiveChoices r.generation r.source
          (answers r.source)).2 := by
      rw [Session.receiveAll, List.foldl_append]
      rfl
    rw [last]
    exact underway.step (reachable.receiveAll answers requests) bounds withers
      (expected r (by simp)) (within _ (List.Subset.refl _))

/-- What bounds a form with its values in the spelling of its choices bounds what becomes of it when it is
settled. -/
theorem Bounds.settle_fades (bounds : Bounds u g) (withers : u.Withers) (founded : u.Founded)
    (spelled : ∀ b ∈ u.controls, u.catalog.Spelled b) (above : u.controls.Fades g.controls) :
    u.settle.controls.Fades g.controls := by
  have same := Catalog.reconcile_of_spelled spelled
  have between : Between u g u.controls u.catalog := by
    refine ⟨.of_shut_eq rfl, fun b hb => (spelled b hb).steady, ?_, ?_⟩
    · rw [same]
      exact .refl _
    · rwa [same]
  have bounded : Bounded u g u := ⟨rfl, rfl, rfl, between⟩
  have settled := (bounded.settle bounds withers).between.below
  rwa [Catalog.reconcile_of_spelled (Catalog.spelled_of_fades spelled founded.bound.settle_fades)]
    at settled

theorem Stocked.takeAll (h : s.Stocked) (answers : String → Response) (sources : List String) :
    { s with catalog := s.catalog.takeAll s.config answers sources }.Stocked := by
  induction sources generalizing s with
  | nil => exact h
  | cons source sources ih => exact ih (h.take source (answers source))

section Reachable

variable (h : s.Reachable)

include h

theorem stocked_withAnswers (answers : String → Response) : (s.withAnswers answers).Stocked :=
  (h.stocked.askForChoices.takeAll answers s.catalog.wanted).reconcile

theorem founded_withAnswers (answers : String → Response) : (s.withAnswers answers).Founded :=
  (h.standing.askForChoices.replace rfl _ s.selections).reconcile

/-- What has arrived with some of the answers is there with all of them. -/
theorem within_withAnswers {sources : List String} (part : sources ⊆ s.catalog.wanted) {d : Catalog}
    (same : d.shut = (s.askForChoices.2.catalog.takeAll s.config answers sources).shut) :
    d.Within (s.withAnswers answers).catalog :=
  h.stocked.askForChoices.sound.within_takeAll s.config answers part
    (fun _ asked => h.stocked.sound.awaits asked) same

/-- The form with all the answers is bounded by what becomes of it when it is settled. -/
theorem bounds_settle_withAnswers (answers : String → Response) :
    Bounds (s.withAnswers answers) (s.withAnswers answers).settle := by
  obtain ⟨config, tree, dependencies⟩ := of_frame (s.withAnswers answers).frame_settle
  refine ⟨(founded_withAnswers h answers).settle, config, tree, dependencies, ?_, .refl _⟩
  exact Catalog.Within.of_shut_eq (stocked_withAnswers h answers).shut_settle.symm

/-- A form that has asked for its sources and waits for all of them is between the form with all the answers
and whatever bounds that. -/
theorem underway_nil (steady : ∀ b ∈ s.controls, (s.withAnswers answers).catalog.Steady b)
    (below : (s.withAnswers answers).controls.Fades g.controls) :
    Underway s.askForChoices.2 answers (s.withAnswers answers) g [] s.askForChoices.2 := by
  have within : s.askForChoices.2.catalog.Within (s.withAnswers answers).catalog :=
    within_withAnswers h (List.nil_subset _) rfl
  exact ⟨rfl, rfl, ⟨rfl, rfl, rfl, within, steady, .refl _, below⟩, fun some => absurd rfl some⟩

/-- Once all the answers have arrived one by one, the choices are those of all the answers. -/
theorem Underway.shut_eq {order : List ChoiceRequest}
    (underway : Underway s.askForChoices.2 answers (s.withAnswers answers) g order t)
    (perm : order.Perm s.askForChoices.1) :
    t.catalog.shut = (s.withAnswers answers).catalog.shut := by
  have sources : (order.map ChoiceRequest.source).Perm s.catalog.wanted := by
    have sources := perm.map ChoiceRequest.source
    rw [askForChoices, Catalog.ask_eq, List.map_map] at sources
    exact sources.trans (by rw [show (ChoiceRequest.source ∘ _) = id from rfl, List.map_id])
  rw [underway.taken]
  exact congrArg Catalog.shut
    (Catalog.takeAll_perm s.config answers sources h.stocked.askForChoices.sound)

/-- Once all the answers have arrived one by one, all values are in the spelling of the choices. -/
theorem Underway.reconcile_eq {order : List ChoiceRequest} (perm : order.Perm s.askForChoices.1)
    (underway : Underway s.askForChoices.2 answers (s.withAnswers answers) g order
      (s.askForChoices.2.receiveAll answers order))
    (due : s.askForChoices.1 ≠ [] ∨ s.reconcile = s) :
    (s.withAnswers answers).catalog.reconcile (s.askForChoices.2.receiveAll answers order).controls =
      (s.askForChoices.2.receiveAll answers order).controls := by
  cases order with
  | nil =>
    have none : s.askForChoices.1 = [] := List.nil_perm.1 perm
    have unasked : s.catalog.wanted = [] := List.map_eq_nil_iff.1 none
    rcases due with some | spelled
    · exact absurd none some
    · have controls : s.catalog.reconcile s.controls = s.controls := congrArg Session.controls spelled
      rw [withAnswers, unasked]
      exact controls
  | cons r order =>
    have shut := Catalog.shut?_congr (underway.shut_eq h perm)
    refine Catalog.reconcile_of_spelled fun b hb => ?_
    exact (underway.spelled (List.cons_ne_nil r order) b hb).of_shut fun id => (shut id).symm

/-- After all the answers one by one, the form is between the one with all the answers and what becomes of
that when it is settled. -/
theorem underway_receiveAll {order : List ChoiceRequest} (perm : order.Perm s.askForChoices.1)
    (steady : ∀ b ∈ s.controls, (s.withAnswers answers).catalog.Steady b)
    (withers : (s.withAnswers answers).Withers) :
    Underway s.askForChoices.2 answers (s.withAnswers answers) (s.withAnswers answers).settle order
      (s.askForChoices.2.receiveAll answers order) := by
  have asked : ∀ r ∈ order, r.source ∈ s.catalog.wanted ∧
      r.generation = s.askForChoices.2.catalog.generation := by
    intro r hr
    obtain ⟨source, wanted, rfl⟩ := List.mem_map.1 (perm.subset hr)
    exact ⟨wanted, rfl⟩
  have founded := founded_withAnswers h answers
  have start := underway_nil h steady founded.bound.settle_fades
  refine start.receiveAll (h.run .askForChoices) (bounds_settle_withAnswers h answers) withers
    (fun r hr => (asked r hr).2) fun part hpart d shut => ?_
  refine within_withAnswers h ?_ shut
  intro source hsource
  obtain ⟨r, hr, rfl⟩ := List.mem_map.1 hsource
  exact (asked r (hpart hr)).1

/-- Answers that are taken one by one, in any order, lead to the same form as all of them at once, if the
spelling of the choices keeps the shape of every value and whether it counts, if nothing comes into view by
what is lost, and unless nothing is asked for while some value is not in the spelling of its choices. -/
theorem receiveAll_eq_resolveChoices (answers : String → Response) {order : List ChoiceRequest}
    (perm : order.Perm s.askForChoices.1) (due : s.askForChoices.1 ≠ [] ∨ s.reconcile = s)
    (steady : ∀ b ∈ s.controls, (s.withAnswers answers).catalog.Steady b)
    (withers : (s.withAnswers answers).Withers) :
    s.askForChoices.2.receiveAll answers order =
      (s.resolveChoices fun source _ => answers source).2 := by
  have underway := underway_receiveAll h perm steady withers
  have fixed := underway.reconcile_eq h perm due
  have above := underway.bounded.between.above
  have below := underway.bounded.between.below
  rw [fixed] at above below
  have reachable : (s.askForChoices.2.receiveAll answers order).Reachable :=
    Reachable.receiveAll (h.run .askForChoices) answers order
  have synchronous : (s.withAnswers answers).settle.Stocked := (stocked_withAnswers h answers).settle
  have shut := underway.shut_eq h perm
  have bounds : Bounds (s.withAnswers answers) (s.askForChoices.2.receiveAll answers order) :=
    ⟨reachable.standing, underway.bounded.config, underway.bounded.tree,
      underway.bounded.dependencies, .of_shut_eq shut.symm, below.wanes⟩
  have founded := founded_withAnswers h answers
  have back := bounds.settle_fades withers founded (Catalog.spelled_reconcile steady) above
  rw [resolveChoices_eq]
  refine founded.settle.eq_of_fades reachable.standing synchronous reachable.stocked back below ?_ ?_
  · exact shut.trans (stocked_withAnswers h answers).shut_settle.symm
  · have frame : (s.withAnswers answers).settle.frame = s.askForChoices.2.frame := frame_settle _
    exact underway.frame.trans frame.symm

end Reachable

def stayOf (fields : List Field) : Session :=
  .start "" { dependentRules := [⟨"floor", "house", "house"⟩, ⟨"room", "house", "house"⟩] }
    ⟨none, [⟨"Stay", none, none, none, fields, [], [], ⟨.always, none, .null⟩, true, none, []⟩], [],
      []⟩

theorem reachable_stayOf (fields : List Field) : (stayOf fields).Reachable := .start ..

def withFloor : Condition := ⟨some "floor", .hasValue, .null, .and⟩

/-- A form that waits for three sources, with a note that is in view while a floor is given. -/
def waiting : Session :=
  stayOf [choiceOf "house" (.str "red"), choiceOf "floor" (.str "1"), choiceOf "room" (.str "blue"),
    { textField "note" with defaultValue := .str "late", conditions := [withFloor] }]

/-- A house with one floor, which is spelled as a number, and no rooms. -/
def oneFloor (source : String) : Response :=
  match source with
  | "house" => .rows [.obj [("id", .str "red")]]
  | "floor" => .rows [.obj [("id", Json.ofNat 1), ("house", .str "red")]]
  | _ => .rows []

/-- Answers in the opposite order lead to the same form as all of them at once. -/
theorem receiveAll_eq_resolveChoices_waiting :
    waiting.Reachable ∧ waiting.askForChoices.1.length = 3 ∧
      waiting.askForChoices.2.receiveAll oneFloor waiting.askForChoices.1.reverse =
        (waiting.resolveChoices fun source _ => oneFloor source).2 := by
  have three : waiting.askForChoices.1.length = 3 := by decide +kernel
  have asked : waiting.askForChoices.1 ≠ [] := by
    intro none
    rw [none] at three
    cases three
  have null : ∀ v : Json, v.isNull = true → v = .null := by
    intro v isNull
    cases v <;> first | rfl | cases isNull
  have spelled : ∀ b ∈ waiting.controls,
      b.state.value.emptied.isNull = true ∧
        ((waiting.withAnswers oneFloor).catalog.reconciled b).state.value.emptied.isNull = true ∧
          ((waiting.withAnswers oneFloor).catalog.reconciled b).state.value.isTruthy = true := by
    decide +kernel
  have subside : ∀ p ∈ (waiting.withAnswers oneFloor).tree.placements, p.subsides = true := by
    decide +kernel
  refine ⟨reachable_stayOf _, three, receiveAll_eq_resolveChoices (reachable_stayOf _) oneFloor
    (List.reverse_perm _) (.inl asked) ?_ (withers_of_subsides subside)⟩
  intro b hb
  obtain ⟨before, after, counts⟩ := spelled b hb
  exact ⟨fun _ => (null _ after).trans (null _ before).symm, fun _ => counts⟩

/-- A form in which something hangs on what is lost while answers arrive. The note is in view while the
first floor or any but the blue room is taken, and both are lost to a house without floors and rooms; the
other two fields are hidden once there is no floor, whatever the spelling of their values is by then. -/
def entangled : Session :=
  stayOf [choiceOf "house" (.str "red"), choiceOf "floor" (.str "first"),
    choiceOf "room" (.str "blue"),
    { textField "note" with
      defaultValue := .str "late"
      conditions := [⟨some "floor", .equals, .str "first", .and⟩,
        ⟨some "room", .notEquals, .str "blue", .or⟩] },
    { choiceOf "pets" (.obj [("value", .arr [.str "cat"])]) with conditions := [withFloor] },
    { choiceOf "smoker" (.str "false") with conditions := [withFloor] }]

/-- A house without floors and rooms, and a choice in another spelling for the fields beside it. -/
def noFloor (source : String) : Response :=
  match source with
  | "pets" => .rows [.obj [("id", .arr [.str "cat"])]]
  | "smoker" => .rows [.obj [("id", .bool false)]]
  | _ => .rows []

/-- A form that waits for nothing, with a value that has come one step closer to the spelling of its
choices, but not all the way. -/
def respelled : Session :=
  (stayOf [{ choiceOf "size" .null with
      dataSource := none
      options := some [.arr [.str "1"], Json.ofNat 1] }]).run
    (.setValue "size" (.obj [("value", .arr [.str "1"])]))

/-- Answers in the order in which they were asked for need not lead to the same form as in the opposite
order or as all of them at once: the note is lost only to the first, and so are a list that is emptied and
a text that counts while its spelling does not. Where nothing is asked for, taking all answers still brings
values closer to the spelling of their choices. -/
theorem receiveAll_ne_resolveChoices :
    (entangled.Reachable ∧ entangled.catalog.inFlight = [] ∧
      ∃ first last all : Session,
        first = entangled.askForChoices.2.receiveAll noFloor entangled.askForChoices.1 ∧
        last = entangled.askForChoices.2.receiveAll noFloor entangled.askForChoices.1.reverse ∧
        all = (entangled.resolveChoices fun source _ => noFloor source).2 ∧
        (first.controls.value? "note").map Json.isFilled = some false ∧
        (last.controls.value? "note").map Json.isFilled = some true ∧
        (all.controls.value? "note").map Json.isFilled = some true ∧
        (first.controls.value? "pets").map Json.isNull = some true ∧
        (all.controls.value? "pets").map Json.isNull = some false ∧
        (first.controls.value? "smoker").map Json.isNull = some true ∧
        (all.controls.value? "smoker").map Json.isNull = some false) ∧
    (respelled.Reachable ∧ respelled.catalog.inFlight = [] ∧ respelled.askForChoices.1 = [] ∧
      (respelled.controls.value? "size").map (Json.same (.arr [.str "1"])) = some true ∧
      ((respelled.resolveChoices fun source _ => noFloor source).2.controls.value? "size").map
        (Json.same (.arr [Json.ofNat 1])) = some true) := by
  constructor
  · refine ⟨reachable_stayOf _, by decide +kernel, _, _, _, rfl, rfl, rfl, ?_⟩
    decide +kernel
  · refine ⟨.run (reachable_stayOf _) _, ?_⟩
    decide +kernel

end Formwork.Session
