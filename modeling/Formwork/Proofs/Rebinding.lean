import Formwork.Proofs.Requests

/-!
# Binding the choices once more

The choices of a control are made in two ways: from an answer as it comes, and from the rows that are kept when
the form is laid out. A failed answer empties the choices and leaves the kept rows as they are, so the two ways
part where a source fails after it has brought rows. What each way shows is told by the log alone.
-/
namespace Formwork

namespace Log

/-- The last answer of the source in this generation. -/
def lastResponse? (source : String) (log : Log) : Option Response :=
  log.foldl (fun last x =>
    match x with
    | .taken a => if a.source = source then some a.response else last
    | .renewed => none
    | _ => last) none

/-- The rows that the source brought last in this generation, whether or not it has failed since. -/
def keptRows? (source : String) (log : Log) : Option (List Json) :=
  log.foldl (fun kept x =>
    match x with
    | .taken ⟨_, name, .rows rows⟩ => if name = source then some rows else kept
    | .renewed => none
    | _ => kept) none

/-- The rows of the last answer: none if it failed, and none if there was no answer. -/
def saidRows (source : String) (log : Log) : List Json :=
  ((log.lastResponse? source).map Response.answer).getD []

/-- Whether the source has failed since the form was last laid out, and has brought nothing since then. -/
def silenced (source : String) : Log → Bool :=
  lasting (·.fails source) fun x => x.laysOut || x.brings source

theorem lastResponse?_snoc (source : String) (log : Log) (x : Exchange) :
    lastResponse? source (log ++ [x]) =
      match x with
      | .taken a => if a.source = source then some a.response else log.lastResponse? source
      | .renewed => none
      | _ => log.lastResponse? source := by
  rw [lastResponse?, List.foldl_append]
  rfl

theorem keptRows?_snoc (source : String) (log : Log) (x : Exchange) :
    keptRows? source (log ++ [x]) =
      match x with
      | .taken ⟨_, name, .rows rows⟩ => if name = source then some rows else log.keptRows? source
      | .renewed => none
      | _ => log.keptRows? source := by
  rw [keptRows?, List.foldl_append]
  rfl

theorem silenced_snoc (source : String) (log : Log) (x : Exchange) :
    silenced source (log ++ [x]) =
      (x.fails source || log.silenced source && !(x.laysOut || x.brings source)) :=
  lasting_snoc _ _ log x

/-- Nothing was heard of a source, or it brought rows last, or it failed last. -/
inductive Heard (source : String) (log : Log) : Prop
  | nothing (last : log.lastResponse? source = none) (kept : log.keptRows? source = none)
      (heeded : log.silenced source = false)
  | rows (rows : List Json) (last : log.lastResponse? source = some (.rows rows))
      (kept : log.keptRows? source = some rows) (heeded : log.silenced source = false)
  | failure (last : log.lastResponse? source = some .failed)

/-- What was heard of a source stays so as long as nothing more of it is heard and no generation begins. -/
theorem Heard.of_same {source : String} {log log' : Log} (h : log.Heard source)
    (last : log'.lastResponse? source = log.lastResponse? source)
    (kept : log'.keptRows? source = log.keptRows? source)
    (silenced : log.silenced source = false → log'.silenced source = false) : log'.Heard source := by
  cases h with
  | nothing last' kept' heeded => exact .nothing (last.trans last') (kept.trans kept') (silenced heeded)
  | rows rows last' kept' heeded =>
    exact .rows rows (last.trans last') (kept.trans kept') (silenced heeded)
  | failure last' => exact .failure (last.trans last')

theorem heard (source : String) (log : Log) : log.Heard source := by
  induction log using List.reverseRecOn with
  | nil => exact .nothing rfl rfl rfl
  | append_singleton log x ih =>
    cases x with
    | asked r =>
      refine ih.of_same (lastResponse?_snoc ..) (keptRows?_snoc ..) fun heeded => ?_
      rw [silenced_snoc, heeded]
      rfl
    | rebuilt =>
      refine ih.of_same (lastResponse?_snoc ..) (keptRows?_snoc ..) fun _ => ?_
      rw [silenced_snoc]
      simp
    | renewed =>
      refine .nothing (lastResponse?_snoc ..) (keptRows?_snoc ..) ?_
      rw [silenced_snoc]
      simp
    | taken a =>
      obtain ⟨generation, name, response⟩ := a
      by_cases same : name = source
      · cases response with
        | rows rows =>
          refine .rows rows ?_ ?_ ?_
          · rw [lastResponse?_snoc]
            exact if_pos same
          · rw [keptRows?_snoc]
            exact if_pos same
          · rw [silenced_snoc]
            simp [same, Response.fails]
        | failed =>
          refine .failure ?_
          rw [lastResponse?_snoc]
          exact if_pos same
      · refine ih.of_same ?_ ?_ fun heeded => ?_
        · rw [lastResponse?_snoc]
          exact if_neg same
        · rw [keptRows?_snoc]
          cases response with
          | rows rows => exact if_neg same
          | failed => rfl
        · rw [silenced_snoc, heeded]
          simp [same]

end Log

/-! ## What the choices are made from -/

theorem Field.offer?_of_choiceSource? (config : Config) (cache : Table (List Json)) {f : Field}
    {source : String} (drawn : f.choiceSource? = some source) :
    ∃ o, f.offer? config cache = some o ∧ o.source = some source ∧
      o.all = Offer.choicesOf config source f.maxOptions ((Table.get? source cache).getD []) := by
  unfold choiceSource? at drawn
  split at drawn
  · rename_i takes
    rw [Bool.and_eq_true] at takes
    unfold offer?
    refine ⟨_, if_pos takes.1, ?_⟩
    simp only [List.isEmpty_iff.1 takes.2, drawn]
    cases Table.get? source cache with
    | some rows => exact ⟨rfl, rfl⟩
    | none => exact ⟨rfl, (Offer.choicesOf_nil ..).symm⟩
  · cases drawn

/-- The offer as it is left by the failures of its source. -/
def Log.leaves (log : Log) (config : Config) (o : Offer) : Offer :=
  match o.source with
  | some source => if log.silenced source then o.fill config source Response.failed.answer else o
  | none => o

/-- The log tells which rows are kept, and that the choices are made from them unless their source is silenced. -/
structure Log.Fills (log : Log) (x : Supply) : Prop where
  cache : ∀ source, Table.get? source x.cache = log.keptRows? source
  offers : ∀ p ∈ x.tree.fields,
    x.offer? p.controlId = (p.field.offer? x.config x.cache).map fun o => (log.leaves x.config o).shut

namespace Log

variable {log : Log} {x : Supply}

theorem leaves_of_silenced {o : Offer} {source : String} (named : o.source = some source)
    (silenced : log.silenced source = true) (config : Config) :
    log.leaves config o = o.fill config source Response.failed.answer := by
  simp only [leaves, named]
  rw [if_pos silenced]

theorem leaves_of_heeded {o : Offer} (heeded : ∀ source, o.source = some source → log.silenced source = false)
    (config : Config) : log.leaves config o = o := by
  unfold leaves
  split
  · rename_i source named
    rw [heeded source named, if_neg Bool.false_ne_true]
  · rfl

theorem leaves_congr {log' : Log} {o : Offer}
    (same : ∀ source, o.source = some source → log'.silenced source = log.silenced source)
    (config : Config) : log'.leaves config o = log.leaves config o := by
  unfold leaves
  split
  · rename_i source named
    rw [same source named]
  · rfl

/-- A failure of its source changes neither where an offer comes from nor what is expected of it. -/
theorem leaves_bounds (log : Log) (config : Config) (o : Offer) :
    (log.leaves config o).source = o.source ∧ (log.leaves config o).maxOptions = o.maxOptions := by
  unfold leaves
  split
  · split
    · exact ⟨rfl, rfl⟩
    · exact ⟨rfl, rfl⟩
  · exact ⟨rfl, rfl⟩

/-- The rows of an answer replace what an offer had, whatever that was. -/
theorem fill_leaves (log : Log) (config : Config) (o : Offer) (source : String) (rows : List Json) :
    (log.leaves config o).shut.fill config source rows = o.fill config source rows := by
  obtain ⟨named, limit⟩ := log.leaves_bounds config o
  unfold Offer.fill Offer.shut
  simp only [named, limit]

/-- Where the form is just laid out, nothing has failed since. -/
theorem fills_of_fresh (fresh : x.Fresh) (cache : ∀ source, Table.get? source x.cache = log.keptRows? source)
    (heeded : ∀ source, log.silenced source = false) : log.Fills x where
  cache := cache
  offers p hp := by
    have whole (o : Offer) : log.leaves x.config o = o := leaves_of_heeded (fun source _ => heeded source) _
    simp only [whole]
    rw [fresh.first, Supply.first?_eq fresh.distinct hp]

theorem Fills.ask (h : log.Fills x) (r : ChoiceRequest) : Fills (log ++ [.asked r]) x where
  cache source := by
    rw [keptRows?_snoc]
    exact h.cache source
  offers p hp := by
    have same (o : Offer) : leaves (log ++ [.asked r]) x.config o = log.leaves x.config o := by
      refine leaves_congr (fun source _ => ?_) x.config
      rw [silenced_snoc]
      simp
    simp only [same]
    exact h.offers p hp

/-- Rows that arrive make the offers of their source anew, and those of another source stay. -/
theorem Fills.takeRows (h : log.Fills x) (generation : Nat) (source : String) (rows : List Json) :
    Fills (log ++ [.taken ⟨generation, source, .rows rows⟩]) (x.take ⟨generation, source, .rows rows⟩) where
  cache other := by
    rw [keptRows?_snoc, Supply.take]
    by_cases same : source = other
    · rw [← same, Table.get?_insert_self]
      exact (if_pos rfl).symm
    · rw [Table.get?_insert_of_ne (Ne.symm same), h.cache]
      exact (if_neg same).symm
  offers p hp := by
    have before : (x.take ⟨generation, source, .rows rows⟩).offer? p.controlId =
        (x.offer? p.controlId).map fun o =>
          if o.source = some source then (o.fill x.config source rows).shut else o := rfl
    have now : p.field.offer? x.config (Table.insert source rows x.cache) = _ :=
      Field.offer?_insert x.config x.cache p.field source rows
    rw [before, h.offers p hp]
    simp only [Supply.take, now, Option.map_map]
    congr 1
    funext o
    simp only [Function.comp]
    have named : (log.leaves x.config o).shut.source = o.source := (log.leaves_bounds x.config o).1
    rw [named]
    by_cases same : o.source = some source
    · rw [if_pos same, if_pos same, fill_leaves, leaves_of_heeded fun other drawn => ?_]
      obtain rfl := Option.some.inj (same.symm.trans drawn)
      rw [silenced_snoc]
      simp [Response.fails]
    · rw [if_neg same, if_neg same, leaves_congr fun other drawn => ?_]
      rw [silenced_snoc]
      simp [drawn] at same
      simp [Ne.symm same]

/-- A failure leaves the offers of its source without choices, and those of another source stay. -/
theorem Fills.takeFailure (h : log.Fills x) (generation : Nat) (source : String) :
    Fills (log ++ [.taken ⟨generation, source, .failed⟩]) (x.take ⟨generation, source, .failed⟩) where
  cache other := by
    rw [keptRows?_snoc]
    exact h.cache other
  offers p hp := by
    have before : (x.take ⟨generation, source, .failed⟩).offer? p.controlId =
        (x.offer? p.controlId).map fun o =>
          if o.source = some source then (o.fill x.config source Response.failed.answer).shut else o := rfl
    rw [before, h.offers p hp]
    simp only [Supply.take, Option.map_map]
    congr 1
    funext o
    simp only [Function.comp]
    have named : (log.leaves x.config o).shut.source = o.source := (log.leaves_bounds x.config o).1
    rw [named]
    by_cases same : o.source = some source
    · rw [if_pos same, fill_leaves, leaves_of_silenced same]
      rw [silenced_snoc]
      simp [Response.fails]
    · rw [if_neg same, leaves_congr fun other drawn => ?_]
      rw [silenced_snoc]
      simp [drawn] at same
      simp [Ne.symm same]

theorem Fills.take (h : log.Fills x) (a : Answer) : Fills (log ++ [.taken a]) (x.take a) := by
  obtain ⟨generation, source, response⟩ := a
  cases response with
  | rows rows => exact h.takeRows generation source rows
  | failed => exact h.takeFailure generation source

theorem Fills.ask_all (h : log.Fills x) (requests : List ChoiceRequest) :
    Fills (log ++ requests.map .asked) x := by
  induction requests generalizing log with
  | nil => simpa using h
  | cons r requests ih =>
    rw [List.map_cons, List.append_cons]
    exact ih (h.ask r)

end Log

namespace Session

variable {s : Session} {log : Log}

/-- The log goes on telling what the choices are made from. -/
theorem Passes.fills {more : Log} {t : Session} (passes : s.Passes more t) (h : log.Fills s.supply) :
    Log.Fills (log ++ more) t.supply := by
  induction passes with
  | nothing => rwa [List.append_nil]
  | same _ _ supply ih => rwa [supply]
  | settled _ ih => rwa [supply_settle]
  | asked _ ih =>
    rw [← List.append_assoc]
    exact ih.ask_all _
  | @taken more t _ a _ ih =>
    rw [← List.append_assoc, supply_take]
    exact ih.take a
  | @rebuilt u catalog before =>
    have kept : (u.rebuild before).catalog.cache = s.catalog.cache := by
      rw [(catalog_rebuild before u).2, catalog]
    refine Log.fills_of_fresh (fresh_rebuild before u) (fun source => ?_) fun source => ?_
    · rw [Log.keptRows?_snoc, ← h.cache]
      exact congrArg (Table.get? source) kept
    · rw [Log.silenced_snoc]
      simp
  | @renewed u catalog before =>
    have gone : (u.rebuild before).catalog.cache = [] := by
      rw [(catalog_rebuild before u).2, catalog]
      rfl
    refine Log.fills_of_fresh (fresh_rebuild before u) (fun source => ?_) fun source => ?_
    · rw [Log.keptRows?_snoc]
      exact congrArg (Table.get? source) gone
    · rw [Log.silenced_snoc]
      simp

theorem fills_start (now : String) (config : Config) (template : Template) :
    Log.Fills [] (start now config template).supply := by
  obtain ⟨u, begun, empty⟩ : ∃ u : Session, start now config template = u.rebuild [] ∧
      u.catalog = .empty := ⟨_, rfl, rfl⟩
  rw [begun]
  refine Log.fills_of_fresh (fresh_rebuild [] u) (fun source => ?_) fun source => rfl
  rw [supply, (catalog_rebuild [] u).2, empty]
  rfl

theorem Traced.fills (h : s.Traced log) : log.Fills s.supply := by
  induction h with
  | start now config template => exact fills_start now config template
  | run _ operation ih => exact (passes_run _ operation).fills ih

/-- The choices from a source are made from the rows that it brought last, and there are none while the source
is silenced. -/
theorem Traced.exists_offer (h : s.Traced log) {p : PlacedField} (hp : p ∈ s.tree.fields) {source : String}
    (drawn : p.field.choiceSource? = some source) :
    ∃ o, s.catalog.offer? p.controlId = some o ∧ o.source = some source ∧
      o.all = Offer.choicesOf s.config source p.field.maxOptions
        (if log.silenced source then [] else (log.keptRows? source).getD []) := by
  obtain ⟨first, made, named, all⟩ := Field.offer?_of_choiceSource? s.config s.catalog.cache drawn
  have told : s.catalog.shut? p.controlId =
      (p.field.offer? s.config s.catalog.cache).map fun o => (log.leaves s.config o).shut :=
    h.fills.offers p hp
  have kept : Table.get? source s.catalog.cache = log.keptRows? source := h.fills.cache source
  rw [made, Option.map_some] at told
  obtain ⟨o, found, shut⟩ := Option.map_eq_some_iff.1 told
  obtain ⟨same, -⟩ := log.leaves_bounds s.config first
  have from_source : o.source = (log.leaves s.config first).source := congrArg (·.source) shut
  have choices : o.all = (log.leaves s.config first).all := congrArg (·.all) shut
  refine ⟨o, found, from_source.trans (same.trans named), choices.trans ?_⟩
  cases silenced : log.silenced source with
  | true =>
    rw [Log.leaves_of_silenced named silenced, Offer.fill_failed, if_pos rfl, Offer.choicesOf_nil]
  | false =>
    rw [Log.leaves_of_heeded, if_neg Bool.false_ne_true, all, kept]
    intro other named'
    rwa [← Option.some.inj (named.symm.trans named')]

/-- Binding the choices of a field once more changes them just if its source is silenced and there are choices
among the rows that are kept. -/
theorem Traced.all_bind_field_iff (h : s.Traced log) {p : PlacedField} (hp : p ∈ s.tree.fields) :
    ((s.catalog.bind s.config s.tree).offer? p.controlId).map Offer.all =
        (s.catalog.offer? p.controlId).map Offer.all ↔
      ∀ source, p.field.choiceSource? = some source →
        ¬(log.silenced source = true ∧ Offer.choicesOf s.config source p.field.maxOptions
          ((log.keptRows? source).getD []) ≠ []) := by
  rw [Catalog.offer?_bind h.reachable.standing.laidOut.distinct s.config s.catalog hp]
  cases drawn : p.field.choiceSource? with
  | some source =>
    obtain ⟨o, found, -, all⟩ := h.exists_offer hp drawn
    obtain ⟨first, made, -, all'⟩ := Field.offer?_of_choiceSource? s.config s.catalog.cache drawn
    have kept : Table.get? source s.catalog.cache = log.keptRows? source := h.fills.cache source
    rw [made, found, Option.map_some, Option.map_some, all, all', kept, Option.some.injEq]
    simp only [Option.some.injEq, forall_eq']
    cases log.silenced source with
    | true => simp [Offer.choicesOf_nil]
    | false => simp
  | none =>
    refine iff_of_true ?_ fun source given => by cases given
    have told : s.catalog.shut? p.controlId =
        (p.field.offer? s.config s.catalog.cache).map fun o => (log.leaves s.config o).shut :=
      h.fills.offers p hp
    have unsourced : (p.field.offer? s.config s.catalog.cache).bind Offer.source = none :=
      (Field.source_offer? ..).trans drawn
    have shut : (s.catalog.offer? p.controlId).map Offer.all =
        (s.catalog.shut? p.controlId).map Offer.all := by
      rw [Catalog.shut?, Option.map_map]
      rfl
    rw [shut, told, Option.map_map]
    cases made : p.field.offer? s.config s.catalog.cache with
    | none => rfl
    | some first =>
      rw [made, Option.bind_some] at unsourced
      have whole : log.leaves s.config first = first :=
        Log.leaves_of_heeded (fun source named => by rw [unsourced] at named; cases named) _
      rw [Option.map_some, Option.map_some, Function.comp, whole]
      rfl

/-- The choices from a source are those of its last answer, unless this was a failure before the form was last
laid out, after rows that the form has choices from again. Binding the choices once more changes nothing, unless a
source has failed since the form was last laid out, after rows that there are choices from. -/
theorem Traced.rebinding_shows_received (h : s.Traced log) :
    (∀ p ∈ s.tree.fields, ∀ source, p.field.choiceSource? = some source →
      ∃ o, s.catalog.offer? p.controlId = some o ∧ o.source = some source ∧
        (o.all = Offer.choicesOf s.config source p.field.maxOptions (log.saidRows source) ↔
          ¬(log.lastResponse? source = some .failed ∧ log.silenced source = false ∧
            Offer.choicesOf s.config source p.field.maxOptions ((log.keptRows? source).getD []) ≠ []))) ∧
    ∀ id, ((s.catalog.bind s.config s.tree).offer? id).map Offer.all = (s.catalog.offer? id).map Offer.all ↔
      ∀ p ∈ s.tree.fields, p.controlId = id → ∀ source, p.field.choiceSource? = some source →
        ¬(log.silenced source = true ∧
          Offer.choicesOf s.config source p.field.maxOptions ((log.keptRows? source).getD []) ≠ []) := by
  constructor
  · intro p hp source drawn
    obtain ⟨o, found, named, all⟩ := h.exists_offer hp drawn
    refine ⟨o, found, named, ?_⟩
    rw [all, Log.saidRows]
    cases log.heard source with
    | nothing last kept heeded => simp [last, kept, heeded]
    | rows rows last kept heeded => simp [last, kept, heeded, Response.answer]
    | failure last =>
      cases log.silenced source with
      | true => simp [last, Response.answer]
      | false => simp [last, Response.answer, Offer.choicesOf_nil]
  · intro id
    by_cases there : ∃ p ∈ s.tree.fields, p.controlId = id
    · obtain ⟨p, hp, rfl⟩ := there
      rw [h.all_bind_field_iff hp]
      refine ⟨fun one q hq same => ?_, fun each => each p hp rfl⟩
      rwa [List.inj_on_of_nodup_map h.reachable.standing.laidOut.distinct hq hp same]
    · have unbound : (s.catalog.bind s.config s.tree).offer? id = none := by
        rw [Option.eq_none_iff_forall_not_mem]
        intro o found
        obtain ⟨p, hp, named, -⟩ := Catalog.exists_of_offer?_bind _ found
        exact there ⟨p, hp, named⟩
      have unserved : s.catalog.offer? id = none := by
        rw [← Option.not_isSome_iff_eq_none, ← Option.isSome_map (f := Offer.shut)]
        intro served
        obtain ⟨p, hp, named, -⟩ := (h.reachable.serves id).1 served
        exact there ⟨p, hp, named⟩
      rw [unbound, unserved]
      exact iff_of_true rfl fun p hp named => absurd ⟨p, hp, named⟩ there

def answeredPlace : Session := place.run (.receiveChoices 0 "country" (.rows [.str "Norway"]))

def relapsedPlace : Session := answeredPlace.run (.receiveChoices 0 "country" .failed)

theorem traced_answeredPlace :
    answeredPlace.Traced [.taken ⟨0, "country", .rows [.str "Norway"]⟩] :=
  traced_place.run _

theorem traced_relapsedPlace :
    relapsedPlace.Traced [.taken ⟨0, "country", .rows [.str "Norway"]⟩, .taken ⟨0, "country", .failed⟩] :=
  traced_answeredPlace.run _

theorem rebinding_shows_received_answeredPlace :
    (∃ o, answeredPlace.catalog.offer? "country" = some o ∧
      o.all = Offer.choicesOf answeredPlace.config "country" none [.str "Norway"]) ∧
    ((answeredPlace.catalog.bind answeredPlace.config answeredPlace.tree).offer? "country").map Offer.all =
      (answeredPlace.catalog.offer? "country").map Offer.all := by
  obtain ⟨shown, bound⟩ := traced_answeredPlace.rebinding_shows_received
  obtain ⟨o, found, -, all⟩ := shown _ List.mem_cons_self "country" rfl
  refine ⟨⟨o, found, all.2 fun ⟨last, _⟩ => by cases last⟩, (bound "country").2 ?_⟩
  rintro p hp - source drawn ⟨silenced, -⟩
  obtain rfl := List.mem_singleton.1 hp
  obtain rfl := Option.some.inj drawn
  cases silenced

/-- The choice that the failure took away is there again when the choices are bound once more. -/
theorem rebinding_restores_relapsedPlace :
    relapsedPlace.Traced [.taken ⟨0, "country", .rows [.str "Norway"]⟩, .taken ⟨0, "country", .failed⟩] ∧
      (relapsedPlace.catalog.offer? "country").map (·.all.length) = some 0 ∧
      ((relapsedPlace.catalog.bind relapsedPlace.config relapsedPlace.tree).offer? "country").map
        (·.all.length) = some 1 ∧
      ((relapsedPlace.run (.setOperator "ann")).catalog.offer? "country").map (·.all.length) = some 1 :=
  ⟨traced_relapsedPlace, rfl, rfl, rfl⟩

end Session

end Formwork
