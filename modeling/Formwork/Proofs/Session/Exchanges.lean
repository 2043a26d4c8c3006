import Formwork.Proofs.Answers.Taking
import Formwork.Proofs.Session.Recalling

/-!
# What passes between a session and its host

Which sources are asked for and which answers are taken goes into a log, and so does when the form is laid
out anew. All that decides about requests can be read off the log: which of them are outstanding, which
sources have brought rows in this generation, and which have failed since the form was last laid out.
-/
namespace Formwork

inductive Exchange where
  /-- A source is asked for. -/
  | asked (request : ChoiceRequest)
  /-- An answer is taken. -/
  | taken (answer : Answer)
  /-- The form is laid out anew. -/
  | rebuilt
  /-- The form is laid out anew in a new generation. -/
  | renewed

namespace Exchange

@[simp] def asks (source : String) : Exchange → Bool
  | .asked r => r.source = source
  | _ => false

@[simp] def answers (source : String) : Exchange → Bool
  | .taken a => a.source = source
  | _ => false

@[simp] def brings (source : String) : Exchange → Bool
  | .taken a => a.source = source && !a.response.fails
  | _ => false

@[simp] def fails (source : String) : Exchange → Bool
  | .taken a => a.source = source && a.response.fails
  | _ => false

@[simp] def renews : Exchange → Bool
  | .renewed => true
  | _ => false

@[simp] def laysOut : Exchange → Bool
  | .rebuilt | .renewed => true
  | _ => false

end Exchange

/-- What has passed between a session and its host, in order. -/
abbrev Log := List Exchange

namespace Log

/-- Whether something has begun that nothing has ended since. -/
def lasting (begins ends : Exchange → Bool) (log : Log) : Bool :=
  log.foldl (fun lasts x => begins x || lasts && !ends x) false

/-- Whether the source was asked for in this generation and has not answered since. -/
def outstanding (source : String) : Log → Bool :=
  lasting (·.asks source) fun x => x.renews || x.answers source

/-- Whether the source has brought rows in this generation. -/
def brought (source : String) : Log → Bool := lasting (·.brings source) (·.renews)

/-- Whether the source has failed since the form was last laid out. -/
def failed (source : String) : Log → Bool := lasting (·.fails source) (·.laysOut)

def renewals (log : Log) : Nat := log.countP (·.renews)

/-- What may come next: a source that is not being waited for is asked for in this generation, and an answer
is taken in the generation to which it belongs. -/
def Admits (log : Log) : Exchange → Prop
  | .asked r => r.generation = log.renewals ∧ outstanding r.source log = false
  | .taken a => a.generation = log.renewals
  | _ => True

/-- Everything in the log may come after what is before it. -/
def Orderly (log : Log) : Prop :=
  ∀ (before : Log) (x : Exchange) (after : Log), log = before ++ x :: after → before.Admits x

variable {begins ends : Exchange → Bool} {log : Log} {x : Exchange}

theorem lasting_snoc (begins ends : Exchange → Bool) (log : Log) (x : Exchange) :
    lasting begins ends (log ++ [x]) = (begins x || lasting begins ends log && !ends x) := by
  rw [lasting, List.foldl_append]
  rfl

/-- What lasts goes on until it is ended. -/
theorem lasting_append {more : Log} (lasts : lasting begins ends log = true)
    (none : ∀ y ∈ more, ends y = false) : lasting begins ends (log ++ more) = true := by
  induction more generalizing log with
  | nil => rwa [List.append_nil]
  | cons y more ih =>
    obtain ⟨goes_on, none⟩ := List.forall_mem_cons.1 none
    rw [List.append_cons]
    refine ih ?_ none
    rw [lasting_snoc, lasts, goes_on]
    simp

/-- What has begun and does not last was ended in between. -/
theorem exists_ends {more : Log} (begun : begins x = true)
    (gone : lasting begins ends (log ++ x :: more) = false) : ∃ y ∈ more, ends y = true := by
  by_contra none
  have lasts : lasting begins ends (log ++ [x]) = true := by
    rw [lasting_snoc, begun]
    rfl
  have still := lasting_append lasts fun y hy => by
    rw [← Bool.not_eq_true]
    exact fun ended => none ⟨y, hy, ended⟩
  rw [List.append_assoc, List.singleton_append, gone] at still
  cases still

theorem outstanding_snoc (source : String) (log : Log) (x : Exchange) :
    outstanding source (log ++ [x]) =
      (x.asks source || log.outstanding source && !(x.renews || x.answers source)) :=
  lasting_snoc _ _ log x

theorem brought_snoc (source : String) (log : Log) (x : Exchange) :
    brought source (log ++ [x]) = (x.brings source || log.brought source && !x.renews) :=
  lasting_snoc _ _ log x

theorem failed_snoc (source : String) (log : Log) (x : Exchange) :
    failed source (log ++ [x]) = (x.fails source || log.failed source && !x.laysOut) :=
  lasting_snoc _ _ log x

theorem renewals_append (log more : Log) :
    renewals (log ++ more) = renewals log + renewals more :=
  List.countP_append

theorem renewals_snoc (log : Log) (x : Exchange) :
    renewals (log ++ [x]) = log.renewals + if x.renews then 1 else 0 := by
  rw [renewals_append]
  exact congrArg (log.renewals + ·) List.countP_singleton

theorem orderly_nil : Orderly [] := by
  intro before x after split
  cases before <;> cases split

theorem Orderly.snoc (h : log.Orderly) (next : log.Admits x) : Orderly (log ++ [x]) := by
  intro before y after split
  rcases List.eq_nil_or_concat after with rfl | ⟨more, z, rfl⟩
  · obtain ⟨rfl, last⟩ := List.append_inj' split rfl
    obtain rfl := (List.cons.inj last).1
    exact next
  · rw [List.concat_eq_append, ← List.cons_append, ← List.append_assoc] at split
    exact h before y more (List.append_inj' split rfl).1

end Log

namespace Catalog

variable {c : Catalog}

theorem awaited?_eq_some_iff {o : Offer} {source : String} :
    c.awaited? o = some source ↔ o.source = some source ∧ o.loaded = false ∧
      Table.has source c.cache = false ∧ source ∉ c.inFlight := by
  simp [awaited?, Option.filter_eq_some_iff, and_assoc]

theorem subset_queue (c : Catalog) (asked : List String) (e : String × Offer) :
    asked ⊆ c.queue asked e := by
  unfold queue
  split
  · split
    · exact List.Subset.refl _
    · exact List.subset_append_left _ _
  · exact List.Subset.refl _

theorem mem_queue_of_awaited {asked : List String} {e : String × Offer} {source : String}
    (awaited : c.awaited? e.2 = some source) : source ∈ c.queue asked e := by
  simp only [queue, awaited]
  split
  · assumption
  · exact List.mem_append_right _ List.mem_cons_self

theorem nodup_queue {asked : List String} (h : asked.Nodup) (e : String × Offer) :
    (c.queue asked e).Nodup := by
  unfold queue
  split
  · split
    · exact h
    · rename_i new
      exact List.nodup_append_comm.1 (List.nodup_cons.2 ⟨new, h⟩)
  · exact h

/-- The sources that offers wait for are all asked for. -/
theorem mem_wanted_iff {source : String} :
    source ∈ c.wanted ↔ ∃ e ∈ c.offers, c.awaited? e.2 = some source := by
  refine ⟨exists_of_mem_wanted, ?_⟩
  have each : ∀ (offers : Table Offer) (asked : List String),
      (source ∈ asked ∨ ∃ e ∈ offers, c.awaited? e.2 = some source) →
        source ∈ offers.foldl c.queue asked := by
    intro offers
    induction offers with
    | nil =>
      rintro asked (there | ⟨e, he, -⟩)
      · exact there
      · cases he
    | cons e offers ih =>
      rintro asked (there | ⟨d, hd, awaited⟩)
      · exact ih _ (.inl (c.subset_queue asked e there))
      · rcases List.mem_cons.1 hd with rfl | hd
        · exact ih _ (.inl (mem_queue_of_awaited awaited))
        · exact ih _ (.inr ⟨d, hd, awaited⟩)
  exact fun found => each c.offers [] (.inr found)

/-- No source is asked for twice at once. -/
theorem nodup_wanted (c : Catalog) : c.wanted.Nodup := by
  have each : ∀ (offers : Table Offer) (asked : List String), asked.Nodup →
      (offers.foldl c.queue asked).Nodup := by
    intro offers
    induction offers with
    | nil => exact fun _ h => h
    | cons e offers ih => exact fun asked h => ih _ (nodup_queue h e)
  exact each c.offers [] List.nodup_nil

/-- Nor is one that has not answered. -/
theorem not_mem_inFlight_of_mem_wanted {source : String} (h : source ∈ c.wanted) :
    source ∉ c.inFlight := by
  obtain ⟨e, -, awaited⟩ := exists_of_mem_wanted h
  exact (awaited?_eq_some_iff.1 awaited).2.2.2

end Catalog

/-- In a form that is just laid out, offers wait for the sources of which no rows are kept. -/
theorem Supply.Fresh.loaded {x : Supply} (h : x.Fresh) {id source : String} {o : Offer}
    (found : x.offer? id = some o) (from_source : o.source = some source) :
    o.loaded = Table.has source x.cache := by
  rw [h.first] at found
  obtain ⟨p, -, -, made⟩ := exists_of_first? found
  obtain ⟨before, offer, rfl⟩ := Option.map_eq_some_iff.1 made
  exact (Field.offer?_spec offer).2 source from_source

theorem Session.inFlight_rebuild (before : Fields) (s : Session) :
    (s.rebuild before).catalog.inFlight = s.catalog.inFlight := by
  obtain ⟨offers, catalog, -⟩ := ((s.layOut.bind before).reconcile).catalog_settle
  rw [rebuild, catalog]
  rfl

/-- The catalog knows of requests and answers what the log tells. -/
structure Log.Tells (log : Log) (c : Catalog) : Prop where
  generation : c.generation = log.renewals
  inFlight : ∀ source, source ∈ c.inFlight ↔ log.outstanding source = true
  cache : ∀ source, Table.has source c.cache = log.brought source
  loaded : ∀ id o source, c.shut? id = some o → o.source = some source →
    o.loaded = (log.brought source || log.failed source)
  orderly : log.Orderly

namespace Log

variable {log : Log} {c : Catalog}

theorem Tells.asked_one (h : log.Tells c) {source : String} (new : source ∉ c.inFlight)
    (moduleHints : List String) :
    Tells (log ++ [.asked ⟨c.generation, source, moduleHints⟩])
      { c with inFlight := c.inFlight ++ [source] } where
  generation := by
    rw [renewals_snoc]
    exact h.generation
  inFlight other := by
    rw [outstanding_snoc, List.mem_append, List.mem_singleton, h.inFlight]
    by_cases same : other = source
    · simp [same]
    · simp [same, Ne.symm same]
  cache other := by
    simp [brought_snoc, h.cache]
  loaded id o other found from_source := by
    simp [brought_snoc, failed_snoc, h.loaded id o other found from_source]
  orderly := by
    refine h.orderly.snoc ⟨h.generation, ?_⟩
    rw [← Bool.not_eq_true, ← h.inFlight]
    exact new

/-- Sources that are not being waited for are asked for one after another. -/
theorem Tells.asked_all (h : log.Tells c) {sources : List String} (distinct : sources.Nodup)
    (new : ∀ source ∈ sources, source ∉ c.inFlight) (moduleHints : List String) :
    Tells (log ++ sources.map fun source => .asked ⟨c.generation, source, moduleHints⟩)
      { c with inFlight := c.inFlight ++ sources } := by
  induction sources generalizing log c with
  | nil => simpa using h
  | cons source sources ih =>
    obtain ⟨first, distinct⟩ := List.nodup_cons.1 distinct
    obtain ⟨new_first, new⟩ := List.forall_mem_cons.1 new
    have rest := ih (h.asked_one new_first moduleHints) distinct fun other hother there => by
      rcases List.mem_append.1 there with before | last
      · exact new other hother before
      · exact first (List.mem_singleton.1 last ▸ hother)
    rw [List.map_cons, List.append_cons, List.append_cons c.inFlight]
    exact rest

theorem Tells.ask (h : log.Tells c) (moduleHints : List String) :
    Tells (log ++ (c.ask moduleHints).1.map .asked) (c.ask moduleHints).2 := by
  rw [Catalog.ask_eq, List.map_map]
  exact h.asked_all c.nodup_wanted (fun _ => Catalog.not_mem_inFlight_of_mem_wanted) moduleHints

theorem Tells.take (h : log.Tells c) (config : Config) {a : Answer}
    (current : a.generation = c.generation) :
    Tells (log ++ [.taken a]) (c.take config a.source a.response) where
  generation := by
    rw [renewals_snoc]
    exact h.generation
  inFlight other := by
    have left : (c.take config a.source a.response).inFlight = c.inFlight.filter (· ≠ a.source) := rfl
    rw [outstanding_snoc, left, List.mem_filter, h.inFlight]
    by_cases same : other = a.source
    · simp [same]
    · simp [same, Ne.symm same]
  cache other := by
    rw [brought_snoc, ← h.cache]
    obtain ⟨generation, source, response⟩ := a
    cases response with
    | rows rows =>
      by_cases same : other = source
      · simp [Catalog.take, Table.has, same, Response.fails]
      · simp [Catalog.take, Table.has, Table.get?_insert_of_ne same, Ne.symm same]
    | failed => simp [Catalog.take, Response.fails]
  loaded id o other found from_source := by
    obtain ⟨before, there, source, loaded⟩ := Catalog.exists_shut?_take found
    rw [loaded, h.loaded id before other there (source ▸ from_source), brought_snoc, failed_snoc,
      from_source]
    by_cases same : a.source = other
    · cases failing : a.response.fails <;> simp [same, failing]
    · simp [same, Ne.symm same]
  orderly := h.orderly.snoc (current.trans h.generation)

/-- Nothing is asked for or answered as the form settles. -/
theorem Tells.settle {s : Session} (h : log.Tells s.catalog) : log.Tells s.settle.catalog := by
  obtain ⟨offers, catalog, shut⟩ := s.catalog_settle
  rw [catalog]
  exact ⟨h.generation, h.inFlight, h.cache,
    fun id o source found => h.loaded id o source ((shut id).symm.trans found), h.orderly⟩

/-- A form that is just laid out is told of if no source has failed since and the rest was told of before. -/
theorem tells_rebuild {u : Session} (before : Fields) (generation : u.catalog.generation = log.renewals)
    (inFlight : ∀ source, source ∈ u.catalog.inFlight ↔ log.outstanding source = true)
    (cache : ∀ source, Table.has source u.catalog.cache = log.brought source)
    (steady : ∀ source, log.failed source = false) (orderly : log.Orderly) :
    log.Tells (u.rebuild before).catalog := by
  obtain ⟨same, kept⟩ := Session.catalog_rebuild before u
  refine ⟨same.trans generation, fun source => ?_, fun source => ?_, fun id o source found drawn => ?_,
    orderly⟩
  · rw [Session.inFlight_rebuild, inFlight]
  · rw [kept, cache]
  · rw [(Session.fresh_rebuild before u).loaded found drawn, Session.supply, kept, cache, steady,
      Bool.or_false]

theorem Tells.rebuild {s u : Session} (h : log.Tells s.catalog) (same : u.catalog = s.catalog)
    (before : Fields) : Tells (log ++ [.rebuilt]) (u.rebuild before).catalog := by
  refine tells_rebuild before ?_ (fun source => ?_) (fun source => ?_) (fun source => ?_)
    (h.orderly.snoc trivial)
  · rw [same, renewals_snoc]
    exact h.generation
  · rw [same, h.inFlight, outstanding_snoc]
    simp
  · rw [same, h.cache, brought_snoc]
    simp
  · rw [failed_snoc]
    simp

theorem Tells.renew {s u : Session} (h : log.Tells s.catalog) (new : u.catalog = s.catalog.renew)
    (before : Fields) : Tells (log ++ [.renewed]) (u.rebuild before).catalog := by
  refine tells_rebuild before ?_ (fun source => ?_) (fun source => ?_) (fun source => ?_)
    (h.orderly.snoc trivial)
  · rw [new, renewals_snoc]
    exact congrArg (· + 1) h.generation
  · rw [new, outstanding_snoc]
    simp [Catalog.renew]
  · rw [new, brought_snoc]
    simp [Catalog.renew, Table.has]
  · rw [failed_snoc]
    simp

end Log

namespace Session

variable {s : Session} {log : Log}

/-- What an operation exchanges with the host. -/
def exchanged (s : Session) : Operation → Log
  | .loadTemplate _ | .setStep _ => [.renewed]
  | .fetchTemplate fetch id =>
    match fetch id with
    | .ok _ => [.renewed]
    | .error _ => []
  | .setOperator _ | .loadDocument _ => [.rebuilt]
  | .fetchDocument fetch key =>
    match fetch key with
    | .ok _ => [.rebuilt]
    | .error _ => []
  | .addInstance key =>
    match s.addInstance? key with
    | some _ => [.rebuilt]
    | none => []
  | .removeInstance key index =>
    match s.removeInstance? key index with
    | some _ => [.rebuilt]
    | none => []
  | .askForChoices => s.askForChoices.1.map .asked
  | .receiveChoices generation source response =>
    (s.taken (.receiveChoices generation source response)).map .taken
  | .resolveChoices fetch =>
    s.askForChoices.1.map .asked ++ (s.taken (.resolveChoices fetch)).map .taken
  | _ => []

/-- A session that can be reached, with all that has passed between it and its host. -/
inductive Traced : Session → Log → Prop where
  | start (now : String) (config : Config) (template : Template) :
    Traced (Session.start now config template) []
  | run {s : Session} {log : Log} (h : Traced s log) (operation : Operation) :
    Traced (s.run operation) (log ++ s.exchanged operation)

theorem Traced.reachable (h : s.Traced log) : s.Reachable := by
  induction h with
  | start => exact .start ..
  | run _ operation ih => exact ih.run operation

/-- What passes between a session and its host, step by step, with what each step does to the choices: sources are
asked for, an answer is taken, or the form is laid out anew, in this generation or in a new one. -/
inductive Passes (s : Session) : Log → Session → Prop where
  | nothing : Passes s [] s
  | same {log : Log} {t u : Session} (h : Passes s log t) (catalog : u.catalog = t.catalog)
      (supply : u.supply = t.supply) : Passes s log u
  | settled {log : Log} {t : Session} (h : Passes s log t) : Passes s log t.settle
  | asked {log : Log} {t : Session} (h : Passes s log t) :
      Passes s (log ++ t.askForChoices.1.map .asked) t.askForChoices.2
  | taken {log : Log} {t : Session} (h : Passes s log t) (a : Answer)
      (current : a.generation = t.catalog.generation) :
      Passes s (log ++ [.taken a]) { t with catalog := t.catalog.take t.config a.source a.response }
  | rebuilt {u : Session} (catalog : u.catalog = s.catalog) (before : Fields) :
      Passes s [.rebuilt] (u.rebuild before)
  | renewed {u : Session} (catalog : u.catalog = s.catalog.renew) (before : Fields) :
      Passes s [.renewed] (u.rebuild before)

/-- Answers to the requests of this generation are taken one after another. -/
theorem Passes.answered {t : Session} (h : s.Passes log t) (fetch : String → List String → Response)
    {requests : List ChoiceRequest} (current : ∀ r ∈ requests, r.generation = t.catalog.generation) :
    s.Passes (log ++ requests.map fun r => .taken ⟨r.generation, r.source, fetch r.source r.moduleHints⟩)
      { t with catalog := requests.foldl (Session.answered fetch t.config) t.catalog } := by
  induction requests generalizing log t with
  | nil => simpa using h
  | cons r requests ih =>
    obtain ⟨now, current⟩ := List.forall_mem_cons.1 current
    have first : Session.answered fetch t.config t.catalog r =
        t.catalog.take t.config r.source (fetch r.source r.moduleHints) := by
      rw [Session.answered, Catalog.receive?, if_pos now]
      rfl
    have rest := ih (h.taken ⟨r.generation, r.source, fetch r.source r.moduleHints⟩ now) current
    rw [List.map_cons, List.append_cons, List.foldl_cons, first]
    exact rest

/-- What an operation exchanges with the host is what passes in it. -/
theorem passes_run (s : Session) (operation : Operation) :
    s.Passes (s.exchanged operation) (s.run operation) := by
  have effect := s.effect_run operation
  cases operation with
  | passTime | commitSaved => exact .same .nothing rfl rfl
  | setValue | touch | select | deselect | save =>
    generalize s.run _ = t at effect ⊢
    cases effect
    all_goals first
      | exact .same .nothing rfl rfl
      | exact .settled (.same .nothing rfl rfl)
  | setOperator => exact .rebuilt (by rfl) _
  | loadTemplate => exact .renewed (by rfl) _
  | fetchTemplate fetch id =>
    simp only [exchanged, run, fetchTemplate]
    cases fetch id with
    | ok text => exact .renewed (by rfl) _
    | error e => exact .nothing
  | loadDocument => exact .rebuilt (by rfl) _
  | fetchDocument fetch key =>
    simp only [exchanged, run, fetchDocument]
    cases fetch key with
    | ok raw => exact .rebuilt (by rfl) _
    | error e => exact .nothing
  | setStep => exact .renewed (by rfl) _
  | addInstance key =>
    simp only [exchanged, run, addInstance?]
    cases s.registry.add? key with
    | some registry => exact .rebuilt (by rfl) _
    | none => exact .nothing
  | removeInstance key index =>
    simp only [exchanged, run, removeInstance?]
    cases s.registry.remove? key index with
    | some removed => exact .rebuilt (by rfl) _
    | none => exact .nothing
  | askForChoices => exact .asked .nothing
  | receiveChoices generation source response =>
    generalize s.run _ = t at effect ⊢
    cases effect with
    | refused _ may => cases may
    | missedChoices _ _ _ late =>
      rw [exchanged, Session.taken, if_neg late]
      exact .nothing
    | receiveChoices =>
      rw [exchanged, Session.taken, if_pos rfl]
      have answered := Passes.nothing.taken (s := s) ⟨_, source, response⟩ rfl
      exact .settled (.same answered rfl rfl)
  | resolveChoices fetch =>
    have asked := Passes.nothing.asked (s := s)
    have current : ∀ r ∈ s.askForChoices.1, r.generation = s.askForChoices.2.catalog.generation := by
      intro r hr
      obtain ⟨source, -, rfl⟩ := List.mem_map.1 hr
      rfl
    have answered := asked.answered fetch current
    rw [exchanged, Session.taken, List.map_map]
    exact .settled (.same answered rfl rfl)

/-- The log goes on telling what the catalog knows. -/
theorem Passes.tells {more : Log} {t : Session} (passes : s.Passes more t) (h : log.Tells s.catalog) :
    Log.Tells (log ++ more) t.catalog := by
  induction passes with
  | nothing => rwa [List.append_nil]
  | same _ catalog _ ih => rwa [catalog]
  | settled _ ih => exact ih.settle
  | asked _ ih =>
    rw [← List.append_assoc]
    exact ih.ask _
  | taken _ a current ih =>
    rw [← List.append_assoc]
    exact ih.take _ current
  | rebuilt catalog before => exact h.rebuild catalog before
  | renewed catalog before => exact h.renew catalog before

/-- Nothing has passed when a session starts. -/
theorem tells_start (now : String) (config : Config) (template : Template) :
    Log.Tells [] (start now config template).catalog := by
  obtain ⟨u, begun, empty⟩ : ∃ u : Session, start now config template = u.rebuild [] ∧
      u.catalog = .empty := ⟨_, rfl, rfl⟩
  rw [begun]
  refine Log.tells_rebuild [] ?_ (fun source => ?_) (fun source => ?_) (fun _ => rfl) Log.orderly_nil
  · rw [empty]
    rfl
  · rw [empty]
    simp [Catalog.empty, Log.outstanding, Log.lasting]
  · rw [empty]
    rfl

/-- All that the catalog of a session knows of requests and answers is in the log. -/
theorem Traced.tells (h : s.Traced log) : log.Tells s.catalog := by
  induction h with
  | start now config template => exact tells_start now config template
  | run _ operation ih => exact (passes_run _ operation).tells ih

end Session

end Formwork
