import Formwork.Proofs.Session.Offers
import Mathlib.Data.List.Perm.Basic

/-!
# Taking answers

The answers of different sources may be taken in any order, and what is on offer in the meantime has no part
in it. Once some answers are taken, the offers that have arrived are the same as after all of them.
-/
namespace Formwork

/-- Names that are given values in either order. -/
theorem Table.insert_comm {α : Type} {a b : String} (other : a ≠ b) (v w : α) {t : Table α}
    (h : t.Ascending) : (t.insert a v).insert b w = (t.insert b w).insert a v := by
  refine Table.ext (ascending_insert b w (ascending_insert a v h))
    (ascending_insert a v (ascending_insert b w h)) fun id => ?_
  by_cases ha : id = a
  · subst ha
    rw [get?_insert_of_ne other, get?_insert_self, get?_insert_self]
  · rw [get?_insert_of_ne ha]
    by_cases hb : id = b
    · subst hb
      rw [get?_insert_self, get?_insert_self]
    · rw [get?_insert_of_ne hb, get?_insert_of_ne hb, get?_insert_of_ne ha]

def Offer.answered (config : Config) (answers : String → Response) (sources : List String) (o : Offer) :
    Offer :=
  match o.source with
  | some source => if source ∈ sources then o.fill config source (answers source).answer else o
  | none => o

namespace Catalog

/-- The catalog without the choices on offer. -/
def shut (c : Catalog) : Catalog := { c with offers := c.offers.mapValues Offer.shut }

theorem offer?_shut (c : Catalog) (id : String) : c.shut.offer? id = c.shut? id := by
  rw [shut, offer?, Table.get?_mapValues]
  rfl

theorem shut?_congr {c d : Catalog} (h : d.shut = c.shut) (id : String) : d.shut? id = c.shut? id := by
  rw [← offer?_shut, h, offer?_shut]

theorem Within.trans {c d e : Catalog} (h : d.Within c) (h' : c.Within e) : d.Within e := by
  intro id o found loaded
  obtain ⟨o', found', stock⟩ := h id o found loaded
  obtain ⟨o'', found'', stock'⟩ := h' id o' found' ((congrArg Prod.snd stock).trans loaded)
  exact ⟨o'', found'', stock'.trans stock⟩

theorem Within.of_shut_eq {c d : Catalog} (h : d.shut = c.shut) : d.Within c :=
  fun id _ found _ => exists_offer_of_shut (shut?_congr h id) found

/-- Catalogs with ascending offers that differ in nothing but the choices on offer. -/
theorem shut_eq_of_offers {c d : Catalog} {offers : Table Offer} (same : d = { c with offers })
    (hc : c.offers.Ascending) (hd : d.offers.Ascending)
    (shut : ∀ id, (Table.get? id offers).map Offer.shut = c.shut? id) : d.shut = c.shut := by
  subst same
  rw [Catalog.shut, Catalog.shut]
  refine congrArg (fun offers => { c with offers }) ?_
  refine Table.ext (Table.ascending_mapValues _ hd) (Table.ascending_mapValues _ hc) fun id => ?_
  rw [Table.get?_mapValues, Table.get?_mapValues]
  exact shut id

variable (config : Config) (answers : String → Response)

def takeAll (sources : List String) (c : Catalog) : Catalog :=
  sources.foldl (fun c source => c.take config source (answers source)) c

theorem offers_take_take {a b : String} (other : a ≠ b) (c : Catalog) :
    ((c.take config a (answers a)).take config b (answers b)).offers =
      ((c.take config b (answers b)).take config a (answers a)).offers := by
  simp only [offers_take, Table.mapValues, List.map_map]
  refine List.map_congr_left fun e _ => Prod.ext rfl ?_
  simp only [Function.comp]
  by_cases ha : e.2.source = some a
  · have hb : e.2.source ≠ some b := by
      rw [ha]
      exact fun same => other (Option.some.inj same)
    have filled : (e.2.fill config a (answers a).answer).source = e.2.source := rfl
    rw [if_pos ha, if_neg hb, if_neg (filled ▸ hb), if_pos ha]
  · by_cases hb : e.2.source = some b
    · have filled : (e.2.fill config b (answers b).answer).source = e.2.source := rfl
      rw [if_neg ha, if_pos hb, if_neg (filled ▸ ha)]
    · rw [if_neg ha, if_neg hb, if_neg ha]

/-- Answers may be taken in either order. -/
theorem take_comm {a b : String} (other : a ≠ b) {c : Catalog} (h : c.cache.Ascending) :
    (c.take config a (answers a)).take config b (answers b) =
      (c.take config b (answers b)).take config a (answers a) := by
  have offers := offers_take_take config answers other c
  have cache : ((c.take config a (answers a)).take config b (answers b)).cache =
      ((c.take config b (answers b)).take config a (answers a)).cache := by
    unfold take
    cases answers a <;> cases answers b <;> try rfl
    exact Table.insert_comm other _ _ h
  have inFlight : ((c.take config a (answers a)).take config b (answers b)).inFlight =
      ((c.take config b (answers b)).take config a (answers a)).inFlight := by
    simp only [take, List.filter_filter, Bool.and_comm]
  exact Catalog.mk.injEq .. ▸ ⟨rfl, cache, inFlight, offers⟩

/-- The order in which answers are taken does not matter. -/
theorem takeAll_perm {sources sources' : List String} (perm : sources.Perm sources') {c : Catalog}
    (h : c.Sound) : c.takeAll config answers sources = c.takeAll config answers sources' := by
  induction perm generalizing c with
  | nil => rfl
  | cons source _ ih => exact ih (h.take config source (answers source))
  | swap a b sources =>
    simp only [takeAll, List.foldl_cons]
    by_cases same : a = b
    · rw [same]
    · rw [take_comm config answers same h.cache]
  | trans _ _ ih ih' => exact (ih h).trans (ih' h)

/-- Of the choices on offer, nothing goes into what an answer brings. -/
theorem shut_take (source : String) (response : Response) (c : Catalog) :
    (c.take config source response).shut = (c.shut.take config source response).shut := by
  have offers : (c.take config source response).offers.mapValues Offer.shut =
      (c.shut.take config source response).offers.mapValues Offer.shut := by
    simp only [offers_take, shut, Table.mapValues, List.map_map]
    refine List.map_congr_left fun e _ => Prod.ext rfl ?_
    simp only [Function.comp]
    have there : e.2.shut.source = e.2.source := rfl
    by_cases from_source : e.2.source = some source
    · rw [if_pos from_source, if_pos (there.trans from_source)]
      rfl
    · rw [if_neg from_source, if_neg (there ▸ from_source)]
      rfl
  cases response <;> exact Catalog.mk.injEq .. ▸ ⟨rfl, rfl, rfl, offers⟩

/-- An answer that comes twice changes nothing the second time. -/
theorem answered_take (source : String) (sources : List String) (o : Offer) :
    Offer.answered config answers sources
        (if o.source = some source then o.fill config source (answers source).answer else o) =
      Offer.answered config answers (source :: sources) o := by
  by_cases from_source : o.source = some source
  · have filled : (o.fill config source (answers source).answer).source = some source := from_source
    rw [if_pos from_source, Offer.answered, Offer.answered, filled, from_source]
    simp only [List.mem_cons_self, if_true]
    exact ite_self _
  · rw [if_neg from_source, Offer.answered, Offer.answered]
    cases named : o.source with
    | none => rfl
    | some other =>
      have elsewhere : other ≠ source := fun same => from_source (named.trans (congrArg some same))
      simp only [List.mem_cons, elsewhere, false_or]

/-- What is offered once the sources have answered. -/
theorem offer?_takeAll (sources : List String) (c : Catalog) (id : String) :
    (c.takeAll config answers sources).offer? id =
      (c.offer? id).map (Offer.answered config answers sources) := by
  induction sources generalizing c with
  | nil =>
    have same : Offer.answered config answers [] = fun o => o := by
      funext o
      unfold Offer.answered
      split
      · simp
      · rfl
    rw [same, Option.map_id']
    rfl
  | cons source sources ih =>
    have first : c.takeAll config answers (source :: sources) =
        (c.take config source (answers source)).takeAll config answers sources := rfl
    rw [first, ih, offer?_take, Option.map_map]
    exact congrArg (fun f => Option.map f _) (funext (answered_take config answers source sources))

def queue (c : Catalog) (asked : List String) (e : String × Offer) : List String :=
  match c.awaited? e.2 with
  | some source => if source ∈ asked then asked else asked ++ [source]
  | none => asked

/-- The sources to ask for. -/
def wanted (c : Catalog) : List String := c.offers.foldl c.queue []

theorem ask_eq (moduleHints : List String) (c : Catalog) :
    c.ask moduleHints = (c.wanted.map fun source => ⟨c.generation, source, moduleHints⟩,
      { c with inFlight := c.inFlight ++ c.wanted }) := rfl

theorem mem_queue {c : Catalog} {asked : List String} {e : String × Offer} {source : String}
    (h : source ∈ c.queue asked e) : source ∈ asked ∨ c.awaited? e.2 = some source := by
  unfold queue at h
  cases awaited : c.awaited? e.2 with
  | none =>
    rw [awaited] at h
    exact .inl h
  | some other =>
    rw [awaited] at h
    dsimp only at h
    split at h
    · exact .inl h
    · rcases List.mem_append.1 h with before | last
      · exact .inl before
      · rw [List.mem_singleton.1 last]
        exact .inr rfl

/-- What is asked for is awaited by some offer. -/
theorem exists_of_mem_wanted {c : Catalog} {source : String} (h : source ∈ c.wanted) :
    ∃ e ∈ c.offers, c.awaited? e.2 = some source := by
  have each : ∀ (offers : Table Offer) (asked : List String), source ∈ offers.foldl c.queue asked →
      source ∈ asked ∨ ∃ e ∈ offers, c.awaited? e.2 = some source := by
    intro offers
    induction offers with
    | nil => exact fun asked h => .inl h
    | cons e offers ih =>
      intro asked h
      rcases ih _ h with before | ⟨d, hd, awaited⟩
      · rcases mem_queue before with there | awaited
        · exact .inl there
        · exact .inr ⟨e, List.mem_cons_self, awaited⟩
      · exact .inr ⟨d, List.mem_cons_of_mem _ hd, awaited⟩
  rcases each c.offers [] h with none | found
  · cases none
  · exact found

/-- Some offer waits for the source. -/
def Awaits (c : Catalog) (source : String) : Prop :=
  ∃ id o, c.shut? id = some o ∧ o.source = some source ∧ o.loaded = false

/-- What is asked for has not arrived. -/
theorem Sound.awaits {c : Catalog} (h : c.Sound) {source : String} (asked : source ∈ c.wanted) :
    c.Awaits source := by
  obtain ⟨⟨id, o⟩, he, awaited⟩ := exists_of_mem_wanted asked
  obtain ⟨from_source, open_⟩ := Option.filter_eq_some_iff.1 awaited
  simp only [Bool.and_eq_true, Bool.not_eq_true'] at open_
  refine ⟨id, o.shut, ?_, from_source, open_.1.1⟩
  rw [shut?, offer?, (Table.get?_eq_some_iff h.offers).2 he, Option.map_some]

/-- No offer waits for a source that has arrived for another one. -/
theorem Sound.not_awaits {c : Catalog} (h : c.Sound) {id source : String} {o : Offer}
    (there : c.offer? id = some o) (from_source : o.source = some source) (arrived : o.loaded = true) :
    ¬c.Awaits source := by
  rintro ⟨id', o', there', from_source', late⟩
  have shut : c.shut? id = some o.shut := by rw [shut?, there, Option.map_some]
  have together := h.together id' id o' o.shut there' shut
    (by rw [from_source', Option.isSome_some]) (from_source'.trans from_source.symm)
  rw [late] at together
  exact absurd (together.trans arrived) (by simp)

/-- What has arrived once some of the awaited sources have answered is there after all the answers. -/
theorem Sound.within_takeAll {c d : Catalog} (h : c.Sound) {sources all : List String}
    (part : sources ⊆ all) (awaited : ∀ source ∈ all, c.Awaits source)
    (same : d.shut = (c.takeAll config answers sources).shut) :
    d.Within (c.takeAll config answers all) := by
  intro id o found loaded
  obtain ⟨o', found', stock⟩ := exists_offer_of_shut (shut?_congr same id) found
  rw [offer?_takeAll] at found'
  obtain ⟨before, there, rfl⟩ := Option.map_eq_some_iff.1 found'
  refine ⟨before.answered config answers all, by rw [offer?_takeAll, there, Option.map_some], ?_⟩
  rw [← stock]
  have arrived : (before.answered config answers sources).loaded = true :=
    (congrArg Prod.snd stock).trans loaded
  unfold Offer.answered at arrived ⊢
  cases from_source : before.source with
  | none => rfl
  | some source =>
    rw [from_source] at arrived
    dsimp only at arrived ⊢
    by_cases taken : source ∈ sources
    · rw [if_pos taken, if_pos (part taken)]
    · rw [if_neg taken] at arrived ⊢
      have known : source ∉ all :=
        fun asked => h.not_awaits there from_source arrived (awaited source asked)
      rw [if_neg known]

theorem generation_takeAll (sources : List String) (c : Catalog) :
    (c.takeAll config answers sources).generation = c.generation := by
  induction sources generalizing c with
  | nil => rfl
  | cons source sources ih => exact ih (c.take config source (answers source))

end Catalog

/-- Answers that are expected are taken one after another. -/
theorem Session.foldl_answered (config : Config) (answers : String → Response) (moduleHints : List String)
    (sources : List String) (c : Catalog) :
    (sources.map fun source => (⟨c.generation, source, moduleHints⟩ : ChoiceRequest)).foldl
        (Session.answered (fun source _ => answers source) config) c =
      c.takeAll config answers sources := by
  induction sources generalizing c with
  | nil => rfl
  | cons source sources ih =>
    have first : Session.answered (fun source _ => answers source) config c
        ⟨c.generation, source, moduleHints⟩ = c.take config source (answers source) := by
      simp [Session.answered, Catalog.receive?]
    rw [List.map_cons, List.foldl_cons, first]
    exact ih (c.take config source (answers source))

end Formwork
