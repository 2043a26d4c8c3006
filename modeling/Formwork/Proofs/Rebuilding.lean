import Formwork.Proofs.Answers
import Formwork.Proofs.Layout.Telling
import Formwork.Proofs.Removal
import Formwork.Proofs.Session.Binding
import Formwork.Proofs.Session.Recalling
import Formwork.Proofs.Session.Spelling
import Formwork.Proofs.Settling.Echoing

/-!
# Making a form anew from its own values

A form that is made anew from the values of its controls looks as it did before. Instances are counted as they
were, controls are bound with the values that they have, which are in the spelling of their choices already,
and a round of settling takes none of them. What it decides anew comes out the same. Only what controls
remember of the past is lost, and sources that have failed are waited for again.
-/
namespace Formwork

/-- The control without its past: the value from which it counts as changed, whether it has, and whether it was
visited. -/
def Control.outward (c : Control) : Control := { c with initial := .null, dirty := false, touched := false }

/-- The offer, be there something to wait for or not. -/
def Offer.outward (o : Offer) : Offer := { o with loaded := true }

namespace Session

/-- What there is to be seen of a session. -/
def outward (s : Session) : Session :=
  { s with
    controls := s.controls.map (BoundControl.change fun _ => Control.outward)
    catalog := { s.catalog with offers := s.catalog.offers.mapValues Offer.outward } }

theorem aside_outward : Control.Aside Control.outward :=
  aside_history (fun _ _ => .null) (fun _ => false) fun _ => false

theorem change_outward_of_aspects {b c : BoundControl} (cast : c.cast = b.cast) (reading : c.reading = b.reading)
    (lock : c.lock = b.lock) :
    BoundControl.change (fun _ => Control.outward) { c with state := c.state.unshown } =
      BoundControl.change (fun _ => Control.outward) { b with state := b.state.unshown } := by
  obtain ⟨id, rawKey, value, initial, disabled, touched, dirty, required, visible, enabled, locked⟩ := b
  simp only [BoundControl.cast, BoundControl.reading, BoundControl.lock, Cast.mk.injEq,
    Prod.mk.injEq] at cast reading lock
  obtain ⟨rfl, rfl, rfl, rfl⟩ := cast
  obtain ⟨-, -, rfl⟩ := reading
  obtain ⟨-, rfl⟩ := lock
  rfl

/-- Apart from being shown, what is seen of controls is what they are bound with, their readings and their
locks. -/
theorem map_outward_unshown_eq {s t : ControlSet} (cast : t.cast = s.cast)
    (readings : t.readings = s.readings)
    (locks : t.map BoundControl.lock = s.map BoundControl.lock) :
    t.unshown.map (BoundControl.change fun _ => Control.outward) =
      s.unshown.map (BoundControl.change fun _ => Control.outward) := by
  induction s generalizing t with
  | nil =>
    obtain rfl := List.map_eq_nil_iff.1 cast
    rfl
  | cons b s ih =>
    cases t with
    | nil => cases cast
    | cons c t =>
      obtain ⟨firstCast, cast⟩ := List.cons.inj cast
      obtain ⟨firstReading, readings⟩ := List.cons.inj readings
      obtain ⟨firstLock, locks⟩ := List.cons.inj locks
      exact List.cons_eq_cons.2
        ⟨change_outward_of_aspects firstCast firstReading firstLock, ih cast readings locks⟩

variable {s t : Session}

/-- Bound with the values that they have, controls have the same readings. -/
theorem Founded.readings_bind (h : s.Founded) :
    (s.bind s.controls.snapshot).controls.readings = s.controls.readings := by
  have cast : (s.bind s.controls.snapshot).controls.cast = s.controls.cast :=
    (ControlSet.cast_ofTree _ _ h.laidOut.distinct).trans h.cast.symm
  refine ControlSet.readings_eq_of_values h.bound.distinct (ControlSet.names_of_cast cast) fun id hid => ?_
  rw [h.bound.ids] at hid
  obtain ⟨p, hp, rfl⟩ := List.mem_map.1 hid
  obtain ⟨v, held⟩ := h.exists_value hp
  rw [value?_bind h.laidOut.distinct _ hp, get?_snapshot h.bound.distinct, held]
  rfl

/-- The offers that a form gets when it is bound again have the choices of those that it has. -/
theorem keeps_bind {past : List Answer} (lasts : s.supply.Lasts past) (serves : s.supply.Serves)
    (laidOut : s.LaidOut) (before : Fields) (id : String) :
    Option.Rel Offer.Keeps ((s.bind before).catalog.offer? id) (s.catalog.offer? id) := by
  by_cases rendered : ∃ p ∈ s.tree.fields, p.controlId = id
  · obtain ⟨p, hp, rfl⟩ := rendered
    have made : (s.bind before).catalog.offer? p.controlId = p.field.offer? s.config s.catalog.cache :=
      Catalog.offer?_bind laidOut.distinct s.config s.catalog hp
    have kept : Option.Rel Offer.Keeps (p.field.offer? s.config s.catalog.cache)
        ((s.catalog.offer? p.controlId).map Offer.shut) := lasts.offers p hp
    rw [made]
    generalize p.field.offer? s.config s.catalog.cache = first, s.catalog.offer? p.controlId = o at kept ⊢
    cases o with
    | none => exact kept
    | some o =>
      cases kept with
      | some kept => exact .some ⟨kept.contents, kept.loaded⟩
  · have absent : s.catalog.offer? id = none := by
      rw [← Option.not_isSome_iff_eq_none, ← Option.isSome_map (f := Offer.shut)]
      intro there
      obtain ⟨p, hp, named, -⟩ := (serves id).1 there
      exact rendered ⟨p, hp, named⟩
    have absent' : (s.bind before).catalog.offer? id = none := by
      rw [Option.eq_none_iff_forall_ne_some]
      intro o found
      obtain ⟨p, hp, named, -⟩ := s.catalog.exists_of_offer?_bind found
      exact rendered ⟨p, hp, named⟩
    rw [absent, absent']
    exact .none

structure Rebinds (s t : Session) : Prop extends Akin s t where
  offers : ∀ id, Option.Rel Offer.Keeps (t.catalog.offer? id) (s.catalog.offer? id)

theorem Rebinds.exists_offer (h : s.Rebinds t) {id : String} {first : Offer}
    (found : t.catalog.offer? id = some first) :
    ∃ o, s.catalog.offer? id = some o ∧ first.Keeps o := by
  have kept := h.offers id
  rw [found] at kept
  generalize s.catalog.offer? id = other at kept
  cases kept with
  | some kept => exact ⟨_, rfl, kept⟩

theorem Rebinds.within (h : s.Rebinds t) : t.catalog.Within s.catalog := by
  intro id first found loaded
  obtain ⟨o, found', kept⟩ := h.exists_offer found
  refine ⟨o, found', ?_⟩
  rw [Offer.stock, Offer.stock, kept.all, kept.loaded loaded, loaded]

/-- No value is given another spelling. -/
theorem Rebinds.reconcile_eq (h : s.Rebinds t) (spelled : ∀ b ∈ s.controls, s.catalog.Spelled b) :
    t.reconcile = t := by
  have same : t.catalog.reconcile t.controls = t.controls :=
    Catalog.reconcile_of_spelled fun b hb => (spelled_congr h.readings spelled b hb).within h.within
  unfold reconcile
  exact congrArg (fun controls => { t with controls }) same

/-- A round takes no value. -/
theorem Rebinds.quiet (h : s.Rebinds t) (standing : s.Standing) : t.Quiet := by
  constructor
  · intro e he
    have kept := standing.quiet.respects e (h.dependencies ▸ he)
    simp only [Refresh.loses, Dependency.losesValue, h.config, h.parentValue,
      ControlSet.value?_congr h.readings] at kept ⊢
    split at kept
    · exact Dependent.not_losesValue_within h.within kept
    · rfl
  · rw [wanted_congr h.tree h.readings]
    exact (keeps_congr h.readings s.wanted).2 standing.quiet.keeps

/-- Settling keeps the readings where a round takes no value, and it decides only which choices are on
offer. -/
theorem Rebinds.settle (h : s.Rebinds t) (bound : t.Bound) (quiet : t.Quiet) : s.Rebinds t.settle := by
  obtain ⟨config, tree, dependencies⟩ := of_frame t.frame_settle
  refine ⟨⟨config.trans h.config, tree.trans h.tree, dependencies.trans h.dependencies,
    (quiet.readings_settle bound).trans h.readings⟩, fun id => ?_⟩
  have kept := h.offers id
  have shut := t.shut?_settle id
  rw [Catalog.shut?, Catalog.shut?] at shut
  generalize t.settle.catalog.offer? id = later, t.catalog.offer? id = first,
    s.catalog.offer? id = o at kept shut ⊢
  cases kept with
  | none =>
    rw [Option.map_eq_none_iff.1 shut]
    exact .none
  | @some first o kept =>
    obtain ⟨later, rfl, same⟩ := Option.map_eq_some_iff.1 shut
    have contents : later.shut.contents = first.shut.contents := congrArg Offer.contents same
    have loaded : later.shut.loaded = first.shut.loaded := congrArg Offer.loaded same
    exact .some ⟨kept.contents.trans contents.symm, fun arrived => kept.loaded (loaded ▸ arrived)⟩

/-- In settled forms with the same readings and choices, the same is seen of the controls. -/
theorem Rebinds.controls_eq (h : s.Rebinds t) (hs : s.Standing) (ht : t.Standing) (stocked : s.Stocked)
    (stocked' : t.Stocked) : t.outward.controls = s.outward.controls := by
  have cast : t.controls.cast = s.controls.cast := by rw [ht.cast, hs.cast, h.tree]
  have unshown := map_outward_unshown_eq cast h.readings (h.locks hs ht stocked stocked')
  have seen (u : Session) (hu : u.Standing) : u.outward.controls =
      (u.controls.unshown.map (BoundControl.change fun _ => Control.outward)).map
        (BoundControl.presentBy u.wanted) := by
    have kept : ∀ b ∈ u.controls.unshown, b.losesValueBy u.wanted = false :=
      (keeps_congr (ControlSet.readings_unshown u.controls) u.wanted).2 hu.quiet.keeps
    rw [map_presentBy_map_change (fun _ => aside_outward) kept, ← hu.controls_eq]
    rfl
  rw [seen t ht, seen s hs, unshown, wanted_congr h.tree h.readings]

/-- So it is of the offers. -/
theorem Rebinds.offers_eq (h : s.Rebinds t) (hs : s.Standing) (ht : t.Standing) (stocked : s.Stocked)
    (stocked' : t.Stocked) : t.outward.catalog.offers = s.outward.catalog.offers := by
  refine Table.ext (Table.ascending_mapValues _ stocked'.sound.offers)
    (Table.ascending_mapValues _ stocked.sound.offers) fun id => ?_
  have told (u : Session) : Table.get? id u.outward.catalog.offers =
      (u.catalog.offer? id).map Offer.outward := Table.get?_mapValues _ _ _
  rw [told, told]
  obtain ⟨locked, offered, decided⟩ := hs.exists_decision stocked id
  have available := (decided s hs stocked ⟨rfl, rfl, rfl, rfl⟩).2
  have available' := (decided t ht stocked' h.toAkin).2
  have kept := h.offers id
  generalize t.catalog.offer? id = first, s.catalog.offer? id = o at kept available available' ⊢
  cases kept with
  | none => rfl
  | @some first o kept =>
    have shown (o : Offer) : o.outward = { o.contents with available := o.available } := rfl
    rw [Option.map_some, Option.map_some, shown, shown, kept.contents, available o rfl,
      available' first rfl, kept.all]

/-- Settled forms with the same readings and choices look the same. -/
theorem Rebinds.outward_eq (h : s.Rebinds t) (hs : s.Standing) (ht : t.Standing) (stocked : s.Stocked)
    (stocked' : t.Stocked) (frame : t.frame = s.frame)
    (catalog : { t.catalog with offers := [] } = { s.catalog with offers := [] }) :
    t.outward = s.outward := by
  have controls := h.controls_eq hs ht stocked stocked'
  have offers := h.offers_eq hs ht stocked stocked'
  have groups : t.groups = s.groups := by
    rw [ht.groups_eq, hs.groups_eq, h.tree, FormTree.plan_congr h.readings]
  have told (u : Session) : u.outward = { u.frame with
      catalog := { ({ u.catalog with offers := [] } : Catalog) with offers := u.outward.catalog.offers }
      controls := u.outward.controls
      groups := u.groups } := rfl
  rw [told t, told s, frame, catalog, controls, offers, groups]

/-- A form that can be reached without a source failing after it has brought rows, and with no list among the
choices, looks the same when it is made anew from the values of its controls. -/
theorem rebuild_snapshot_outward {now : String} {config : Config} {template : Template}
    {operations : List Operation}
    (steady : ((start now config template).heard operations).Pairwise fun b a => ¬b.Relapses a) :
    let s := (start now config template).runAll operations
    s.catalog.Flat → (s.rebuild s.controls.snapshot).outward = s.outward := by
  intro s flat
  have reachable : s.Reachable := (Reachable.start now config template).runAll operations
  have standing := reachable.standing
  have stocked := reachable.stocked
  have laidOut := standing.laidOut
  let v := s.bind s.controls.snapshot
  have rebinds : s.Rebinds v := by
    refine ⟨⟨rfl, rfl, stocked.dependencies.symm, standing.toFounded.readings_bind⟩, ?_⟩
    exact keeps_bind (lasts_start now config template steady) reachable.serves laidOut _
  have quiet := rebinds.quiet standing
  have founded : v.Founded := ⟨laidOut, ControlSet.cast_ofTree _ _ laidOut.distinct⟩
  have rebuilt : s.rebuild s.controls.snapshot = v.settle := by
    rw [rebuild, reachable.layOut_eq, rebinds.reconcile_eq (reachable.spelled flat)]
  have stocked' := stocked_rebuild s.controls.snapshot s stocked.sound.cache
  rw [rebuilt] at stocked' ⊢
  have frame : v.frame = s.frame := by
    have dependencies : v.dependencies = s.dependencies := rebinds.dependencies
    rw [Session.frame, dependencies]
    rfl
  obtain ⟨offers, catalog, -⟩ := v.catalog_settle
  refine (rebinds.settle founded.bound quiet).outward_eq standing founded.settle stocked stocked'
    (v.frame_settle.trans frame) ?_
  rw [catalog]
  rfl

/-- Guests who choose a house, a floor and a room, with dishes and with a note on the floor. -/
def hosting : Template :=
  ⟨none, [{ sectionOf "Guests" (some 1) [] [sectionOf "Dishes" (some 1) ["dish"] []] with
    fields := [choiceOf "house" .null, choiceOf "floor" .null, choiceOf "room" .null,
      { textField "note" with conditions := [withFloor] }] }], [], []⟩

/-- What the hosts do. A source may fail before it brings rows, and another one never brings any. -/
def hosts : List Operation :=
  [.receiveChoices 0 "floor" .failed, .addInstance "guests_1_dishes", .addInstance "guests",
    .setValue "guests_1_house" (.str "red"), .setValue "guests_1_floor" (.str "1"),
    .receiveChoices 0 "floor" (oneFloor "floor"), .receiveChoices 0 "room" .failed]

/-- Two guests, one of whom has chosen a floor. -/
def hosted : Session :=
  (start "" { dependentRules := [⟨"floor", "house", "house"⟩, ⟨"room", "floor", "floor"⟩] }
    hosting).runAll hosts

theorem flat_hosted : hosted.catalog.Flat := by
  intro id o found c hc items list
  have scalars : ∀ x ∈ hosted.catalog.offers, ∀ c ∈ x.2.all, c.value.scalarText?.isSome = true := by
    decide +kernel
  have scalar := scalars _ (Table.mem_of_get? found) c hc
  rw [list] at scalar
  cases scalar

/-- The form looks the same, while it waits for the rooms again. -/
theorem rebuild_snapshot_outward_hosted :
    let again := hosted.rebuild hosted.controls.snapshot
    again.outward = hosted.outward ∧
      hosted.registry.counts = [("guests", 2), ("guests_1_dishes", 2), ("guests_2_dishes", 1)] ∧
      ((hosted.controls.get? "guests_1_note").map Control.visible,
        (hosted.controls.get? "guests_2_note").map Control.visible) = (some true, some false) ∧
      ((hosted.catalog.offer? "guests_1_room").map Offer.loaded,
        (again.catalog.offer? "guests_1_room").map Offer.loaded) = (some true, some false) := by
  have steady : ((start "" { dependentRules := [⟨"floor", "house", "house"⟩, ⟨"room", "floor", "floor"⟩] }
      hosting).heard hosts).Pairwise fun b a => ¬b.Relapses a := by
    decide +kernel
  exact ⟨rebuild_snapshot_outward steady flat_hosted, by decide +kernel⟩

end Session
end Formwork
