import Formwork.Proofs.Session.Exchanges
import Formwork.Proofs.Settling

/-!
# Requests for choices

A source is asked for once until it answers, whatever is done meanwhile, and what it answers to a request of
an earlier generation comes to nothing. It is asked for if a field draws from it, unless it is being waited
for, has brought rows in this generation, or has failed since the form was last laid out.
-/
namespace Formwork

namespace Log

variable {log before between after : Log} {r r' : ChoiceRequest}

/-- A source that is asked for again in the same generation has answered in between: as no generation begins in
between, it is an answer that ends the wait. -/
theorem Orderly.exists_taken (h : log.Orderly)
    (split : log = before ++ .asked r :: (between ++ .asked r' :: after)) (source : r.source = r'.source)
    (generation : r.generation = r'.generation) :
    ∃ response, .taken ⟨r.generation, r.source, response⟩ ∈ between := by
  have first := (h before _ _ split).1
  have again : log = (before ++ .asked r :: between) ++ .asked r' :: after := by
    rw [split, List.append_assoc, List.cons_append]
  obtain ⟨second, gone⟩ := h _ _ _ again
  obtain ⟨x, hx, ends⟩ := exists_ends (by simp [source]) gone
  obtain ⟨earlier, later, rfl⟩ := List.append_of_mem hx
  rw [generation] at first
  rw [first] at second
  simp only [renewals, List.countP_append, List.countP_cons, Exchange.renews] at first second
  cases x with
  | taken a =>
    have current := (h (before ++ .asked r :: earlier) (.taken a) (later ++ .asked r' :: after)
      (by rw [split]; simp)).trans (renewals_append _ _)
    simp only [renewals, List.countP_cons, Exchange.renews] at current
    have named : a.source = r.source := by simpa [source] using ends
    have dated : a.generation = r.generation := by rw [generation, current]; omega
    refine ⟨a.response, List.mem_append_right _ (List.mem_cons.2 (.inl ?_))⟩
    rw [← dated, ← named]
  | renewed => simp at second
  | asked r => simp at ends
  | rebuilt => simp at ends

/-- The generation of a request is over once another one has begun. -/
theorem Orderly.generation_lt (h : log.Orderly) (split : log = before ++ .renewed :: after)
    (asked : .asked r ∈ before) : r.generation < log.renewals := by
  obtain ⟨earlier, later, rfl⟩ := List.append_of_mem asked
  have dated := (h earlier (.asked r) (later ++ .renewed :: after) (by rw [split]; simp)).1
  rw [dated, split]
  simp only [renewals, List.countP_append, List.countP_cons, Exchange.renews]
  simp
  omega

end Log

/-- The source of the choices of the field, if it takes choices and none are listed for it. -/
def Field.choiceSource? (f : Field) : Option String :=
  if f.kind.takesChoices && (f.options.getD []).isEmpty then
    f.dataSource.filter fun source => !Text.isBlankText source
  else none

theorem Field.source_offer? (config : Config) (cache : Table (List Json)) (f : Field) :
    (f.offer? config cache).bind Offer.source = f.choiceSource? := by
  unfold offer? choiceSource?
  cases f.kind.takesChoices with
  | false => rfl
  | true =>
    cases f.options.getD [] with
    | cons entry entries => rfl
    | nil =>
      cases f.dataSource.filter fun source => !Text.isBlankText source with
      | none => rfl
      | some source =>
        simp only
        cases Table.get? source cache <;> rfl

def Supply.Draws (x : Supply) : Prop :=
  ∀ id source, (x.offer? id).bind Offer.source = some source ↔
    ∃ p ∈ x.tree.fields, p.controlId = id ∧ p.field.choiceSource? = some source

namespace Supply

variable {x : Supply}

theorem source_first? (distinct : (x.tree.fields.map (·.controlId)).Nodup) {p : PlacedField}
    (hp : p ∈ x.tree.fields) : (x.first? p.controlId).bind Offer.source = p.field.choiceSource? := by
  rw [first?_eq distinct hp, Option.bind_map, ← Field.source_offer? x.config x.cache]
  rfl

theorem Fresh.draws (h : x.Fresh) : x.Draws := by
  intro id source
  rw [h.first]
  constructor
  · intro drawn
    obtain ⟨o, found, -⟩ := Option.bind_eq_some_iff.1 drawn
    obtain ⟨p, hp, rfl, -⟩ := exists_of_first? found
    exact ⟨p, hp, rfl, (source_first? h.distinct hp).symm.trans drawn⟩
  · rintro ⟨p, hp, rfl, named⟩
    exact (source_first? h.distinct hp).trans named

theorem Draws.take (h : x.Draws) (a : Answer) : (x.take a).Draws := by
  intro id source
  refine Iff.trans ?_ (h id source)
  have same : ((x.take a).offer? id).bind Offer.source = (x.offer? id).bind Offer.source := by
    simp only [Supply.take, Option.bind_map]
    congr 1
    funext o
    simp only [Function.comp]
    split <;> rfl
  rw [same]

end Supply

namespace Session

variable {s : Session}

theorem Reachable.draws (h : Reachable s) : s.supply.Draws :=
  h.supply_of (fun _ => Supply.Fresh.draws) fun _ a h => h.take a

/-- What is asked for is what fields draw from, unless the log says that it is there already or that it need
not be asked for. -/
theorem Reachable.mem_wanted_iff (h : Reachable s) {log : Log} (tells : log.Tells s.catalog)
    {source : String} :
    source ∈ s.catalog.wanted ↔ (∃ p ∈ s.tree.fields, p.field.choiceSource? = some source) ∧
      log.outstanding source = false ∧ log.brought source = false ∧ log.failed source = false := by
  have ascending := h.stocked.sound.offers
  have free : source ∉ s.catalog.inFlight ↔ log.outstanding source = false := by
    rw [tells.inFlight, Bool.not_eq_true]
  rw [Catalog.mem_wanted_iff]
  constructor
  · rintro ⟨⟨id, o⟩, he, awaited⟩
    obtain ⟨drawn, waits, absent, unasked⟩ := Catalog.awaited?_eq_some_iff.1 awaited
    have offered : s.catalog.shut? id = some o.shut := by
      rw [Catalog.shut?, Catalog.offer?, (Table.get?_eq_some_iff ascending).2 he, Option.map_some]
    obtain ⟨p, hp, -, named⟩ := (h.draws id source).1
      (Option.bind_eq_some_iff.2 ⟨o.shut, offered, drawn⟩)
    have loaded := (tells.loaded id o.shut source offered drawn).symm.trans waits
    exact ⟨⟨p, hp, named⟩, free.1 unasked, Bool.or_eq_false_iff.1 loaded⟩
  · rintro ⟨⟨p, hp, named⟩, unasked, absent, steady⟩
    obtain ⟨o, offered, drawn⟩ := Option.bind_eq_some_iff.1
      ((h.draws p.controlId source).2 ⟨p, hp, rfl, named⟩)
    have loaded := tells.loaded p.controlId o source offered drawn
    obtain ⟨o, found, rfl⟩ := Option.map_eq_some_iff.1 offered
    refine ⟨(p.controlId, o), (Table.get?_eq_some_iff ascending).1 found,
      Catalog.awaited?_eq_some_iff.2 ⟨drawn, ?_, ?_, free.2 unasked⟩⟩
    · rw [absent, steady] at loaded
      exact loaded
    · rw [tells.cache, absent]

/-- An answer to a request of another generation changes nothing. -/
theorem receiveChoices_of_late {generation : Nat} (late : generation ≠ s.catalog.generation)
    (source : String) (response : Response) :
    s.receiveChoices generation source response = (.empty, s) := by
  rw [receiveChoices, Catalog.receive?, if_neg late]

/-- Of two requests for one source in one generation the first has been answered before the second is made,
and answers to requests from before the last change of the template or the step change nothing and report
nothing. Generations are numbered by these changes. -/
theorem asked_once_until_answered {log : Log} (h : s.Traced log) :
    (∀ (before : Log) (r : ChoiceRequest) (between : Log) (r' : ChoiceRequest) (after : Log),
      log = before ++ .asked r :: (between ++ .asked r' :: after) → r.source = r'.source →
        r.generation = r'.generation →
          ∃ response, .taken ⟨r.generation, r.source, response⟩ ∈ between) ∧
    (∀ (before after : Log) (r : ChoiceRequest), log = before ++ .renewed :: after → .asked r ∈ before →
      ∀ source response, s.receiveChoices r.generation source response = (.empty, s)) ∧
    s.catalog.generation = log.renewals := by
  have tells := h.tells
  refine ⟨fun before r between r' after split => tells.orderly.exists_taken split, ?_, tells.generation⟩
  intro before after r split asked source response
  refine receiveChoices_of_late (ne_of_lt ?_) source response
  rw [tells.generation]
  exact tells.orderly.generation_lt split asked

def place : Session :=
  .start "" {} ⟨none, [⟨"Place", none, none, none, [choiceOf "country" .null], [], [],
    ⟨.always, none, .null⟩, true, none, []⟩], [], []⟩

def failedPlace : Session := (place.run .askForChoices).run (.receiveChoices 0 "country" .failed)

/-- The form in the next step, after the source was asked for again. -/
def latePlace : Session :=
  ((failedPlace.run (.setOperator "ann")).run .askForChoices).run (.setStep none)

theorem traced_place : place.Traced [] := .start ..

theorem traced_failedPlace :
    failedPlace.Traced [.asked ⟨0, "country", []⟩, .taken ⟨0, "country", .failed⟩] :=
  (traced_place.run .askForChoices).run _

theorem traced_latePlace :
    latePlace.Traced [.asked ⟨0, "country", []⟩, .taken ⟨0, "country", .failed⟩, .rebuilt,
      .asked ⟨0, "country", []⟩, .renewed] :=
  ((traced_failedPlace.run _).run .askForChoices).run _

/-- The source has failed by the time it is asked for again, and its answer is late at the next step. -/
theorem asked_once_until_answered_latePlace :
    (∃ response, Exchange.taken ⟨0, "country", response⟩ ∈
      [Exchange.taken ⟨0, "country", .failed⟩, .rebuilt]) ∧
    (∀ source response, latePlace.receiveChoices 0 source response = (.empty, latePlace)) ∧
    latePlace.catalog.generation = 1 := by
  obtain ⟨between, late, generation⟩ := asked_once_until_answered traced_latePlace
  refine ⟨between [] ⟨0, "country", []⟩ _ ⟨0, "country", []⟩ [.renewed] rfl rfl rfl, ?_, generation⟩
  exact late [.asked ⟨0, "country", []⟩, .taken ⟨0, "country", .failed⟩, .rebuilt,
    .asked ⟨0, "country", []⟩] [] ⟨0, "country", []⟩ rfl List.mem_cons_self

/-- The sources that are asked for, told by what has passed between the session and its host. -/
theorem mem_askForChoices_iff {log : Log} (h : s.Traced log) {r : ChoiceRequest} :
    r ∈ s.askForChoices.1 ↔
      r.generation = s.catalog.generation ∧ r.moduleHints = s.template.moduleHints ∧
        (∃ p ∈ s.tree.fields, p.field.choiceSource? = some r.source) ∧
          log.outstanding r.source = false ∧ log.brought r.source = false ∧
            log.failed r.source = false := by
  rw [← h.reachable.mem_wanted_iff h.tells, askForChoices, Catalog.ask_eq]
  constructor
  · intro hr
    obtain ⟨source, wanted, rfl⟩ := List.mem_map.1 hr
    exact ⟨rfl, rfl, wanted⟩
  · rintro ⟨generation, moduleHints, wanted⟩
    exact List.mem_map.2 ⟨r.source, wanted, by rw [← generation, ← moduleHints]⟩

theorem mem_askForChoices_place : ⟨0, "country", []⟩ ∈ place.askForChoices.1 :=
  (mem_askForChoices_iff traced_place).2 ⟨rfl, rfl, ⟨_, List.mem_cons_self, rfl⟩, rfl, rfl, rfl⟩

/-- A source that has failed is not asked for, though it has brought nothing and is not being waited for. -/
theorem askForChoices_forgets_failed :
    failedPlace.Traced [.asked ⟨0, "country", []⟩, .taken ⟨0, "country", .failed⟩] ∧
      (∃ p ∈ failedPlace.tree.fields, p.field.choiceSource? = some "country") ∧
        Log.outstanding "country"
          [.asked ⟨0, "country", []⟩, .taken ⟨0, "country", .failed⟩] = false ∧
        Log.brought "country" [.asked ⟨0, "country", []⟩, .taken ⟨0, "country", .failed⟩] = false ∧
          failedPlace.askForChoices.1 = [] :=
  ⟨traced_failedPlace, ⟨_, List.mem_cons_self, rfl⟩, rfl, rfl, rfl⟩

end Session

end Formwork
