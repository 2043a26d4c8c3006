import Formwork.Proofs.Session.Offers
import Mathlib.Data.List.Nodup

/-!
# What there is to choose from

The choices that controls have are made when the form is laid out, from the rows that are kept, and answers
change them afterwards. Nothing else that is done to a form has a part in it. So each control that takes
choices has an offer, and no other control has one.
-/
namespace Formwork

theorem Table.sublist_names_filterMap {α β : Type} (name : α → String) (f : α → Option β) (l : List α) :
    (Table.names (l.filterMap fun a => (f a).map fun b => (name a, b))).Sublist (l.map name) := by
  induction l with
  | nil => exact .slnil
  | cons a l ih =>
    rw [List.filterMap_cons]
    cases f a with
    | none => exact ih.cons _
    | some b => exact ih.cons_cons _

namespace Catalog

/-- Each field is made the offer of its own. -/
theorem offer?_bind {t : FormTree} (distinct : (t.fields.map (·.controlId)).Nodup) (config : Config)
    (c : Catalog) {p : PlacedField} (hp : p ∈ t.fields) :
    (c.bind config t).offer? p.controlId = p.field.offer? config c.cache := by
  have names := distinct.sublist (Table.sublist_names_filterMap (·.controlId)
    (fun p : PlacedField => p.field.offer? config c.cache) t.fields)
  rw [offer?, bind, Table.get?_ofPairs names]
  cases made : p.field.offer? config c.cache with
  | some o =>
    refine Table.get?_of_mem names (List.mem_filterMap.2 ⟨p, hp, ?_⟩)
    rw [made, Option.map_some]
  | none =>
    rw [Table.get?_eq_none_iff]
    intro named
    obtain ⟨e, he, id⟩ := List.mem_map.1 named
    obtain ⟨q, hq, entry⟩ := List.mem_filterMap.1 he
    obtain ⟨o, offered, rfl⟩ := Option.map_eq_some_iff.1 entry
    obtain rfl := List.inj_on_of_nodup_map distinct hq hp id
    rw [made] at offered
    cases offered

end Catalog

/-- The offer without what is decided about it afterwards: which choices are on offer and whether there is
something to wait for. -/
def Offer.contents (o : Offer) : Offer := { o with available := [], loaded := true }

structure Answer where
  generation : Nat
  source : String
  response : Response

def Session.taken (s : Session) : Operation → List Answer
  | .receiveChoices generation source response =>
    if generation = s.catalog.generation then [⟨generation, source, response⟩] else []
  | .resolveChoices fetch =>
    s.askForChoices.1.map fun r => ⟨r.generation, r.source, fetch r.source r.moduleHints⟩
  | _ => []

structure Supply where
  config : Config
  tree : FormTree
  generation : Nat
  cache : Table (List Json)
  /-- The offer to a control, without the choices on offer. -/
  offer? : String → Option Offer

namespace Supply

/-- The offer that a control gets when the form is laid out. -/
def first? (x : Supply) (id : String) : Option Offer :=
  Catalog.shut? id (Catalog.bind x.config x.tree ⟨x.generation, x.cache, [], []⟩)

structure Fresh (x : Supply) : Prop where
  distinct : (x.tree.fields.map (·.controlId)).Nodup
  first : x.offer? = x.first?

/-- The supply after an answer. -/
def take (x : Supply) (a : Answer) : Supply :=
  { x with
    cache := match a.response with
      | .rows rows => Table.insert a.source rows x.cache
      | .failed => x.cache
    offer? := fun id => (x.offer? id).map fun o =>
      if o.source = some a.source then (o.fill x.config a.source a.response.answer).shut else o }

variable {x : Supply}

theorem first?_eq (distinct : (x.tree.fields.map (·.controlId)).Nodup) {p : PlacedField}
    (hp : p ∈ x.tree.fields) :
    x.first? p.controlId = (p.field.offer? x.config x.cache).map Offer.shut :=
  congrArg (Option.map Offer.shut) (Catalog.offer?_bind distinct _ _ hp)

theorem exists_of_first? {id : String} {o : Offer} (found : x.first? id = some o) :
    ∃ p ∈ x.tree.fields, p.controlId = id ∧
      (p.field.offer? x.config x.cache).map Offer.shut = some o := by
  obtain ⟨o', there, rfl⟩ := Option.map_eq_some_iff.1 found
  obtain ⟨p, hp, named, made⟩ := Catalog.exists_of_offer?_bind _ there
  exact ⟨p, hp, named, congrArg (Option.map Offer.shut) made⟩

/-- What every answer keeps holds after any number of them. -/
theorem foldl_take_of {P : Supply → Prop} (keeps : ∀ x a, P x → P (x.take a)) (start : P x)
    (answers : List Answer) : P (answers.foldl take x) := by
  induction answers generalizing x with
  | nil => exact start
  | cons a answers ih => exact ih (keeps x a start)

end Supply

namespace Session

variable {s : Session}

def supply (s : Session) : Supply :=
  ⟨s.config, s.tree, s.catalog.generation, s.catalog.cache, fun id => s.catalog.shut? id⟩

@[simp] theorem supply_settle (s : Session) : s.settle.supply = s.supply := by
  obtain ⟨offers, catalog, shut⟩ := s.catalog_settle
  have offer : (fun id => Catalog.shut? id { s.catalog with offers }) = fun id => s.catalog.shut? id :=
    funext shut
  rw [supply, tree_settle, catalog, offer, settle_eq]
  rfl

theorem supply_take (s : Session) (a : Answer) :
    { s with catalog := s.catalog.take s.config a.source a.response }.supply = s.supply.take a := by
  have offer : (fun id => Catalog.shut? id (s.catalog.take s.config a.source a.response)) =
      (s.supply.take a).offer? := by
    funext id
    simp only [Catalog.shut?, Catalog.offer?_take, supply, Supply.take, Option.map_map]
    congr 1
    funext o
    simp only [Function.comp, apply_ite Offer.shut]
    rfl
  rw [supply, offer]
  rfl

/-- The form that is made anew has the supply of one that is just laid out. -/
theorem fresh_rebuild (before : Fields) (s : Session) : (s.rebuild before).supply.Fresh := by
  have rebuilt : (s.rebuild before).supply = (s.layOut.bind before).supply := supply_settle _
  rw [rebuilt]
  exact ⟨(laidOut_layOut s).distinct, rfl⟩

theorem catalog_rebuild (before : Fields) (s : Session) :
    (s.rebuild before).catalog.generation = s.catalog.generation ∧
      (s.rebuild before).catalog.cache = s.catalog.cache := by
  have rebuilt : (s.rebuild before).supply = (s.layOut.bind before).supply := supply_settle _
  exact ⟨congrArg Supply.generation rebuilt, congrArg Supply.cache rebuilt⟩

/-- What an operation can do to the supply: the form is laid out anew, in the same generation or in a new
one without rows, or else answers are taken. -/
inductive Resupplies (s : Session) (answers : List Answer) (t : Session) : Prop
  | took (supply : t.supply = answers.foldl Supply.take s.supply)
  | rebuilt (none : answers = []) (fresh : t.supply.Fresh)
      (generation : t.catalog.generation = s.catalog.generation)
      (cache : t.catalog.cache = s.catalog.cache)
  | renewed (none : answers = []) (fresh : t.supply.Fresh) (cache : t.catalog.cache = [])

theorem resupplies_rebuild {u : Session} (catalog : u.catalog = s.catalog) (before : Fields) :
    s.Resupplies [] (u.rebuild before) := by
  obtain ⟨generation, cache⟩ := catalog_rebuild before u
  exact .rebuilt rfl (fresh_rebuild before u) (generation.trans (by rw [catalog]))
    (cache.trans (by rw [catalog]))

theorem resupplies_renew {u : Session} (catalog : u.catalog = s.catalog.renew) (before : Fields) :
    s.Resupplies [] (u.rebuild before) :=
  .renewed rfl (fresh_rebuild before u) ((catalog_rebuild before u).2.trans (by rw [catalog]; rfl))

theorem resupplies_same {t : Session} (same : t.supply = s.supply) : s.Resupplies [] t := .took same

/-- Answers to the requests of this generation are all taken. -/
theorem supply_foldl_answered (fetch : String → List String → Response) (requests : List ChoiceRequest)
    (current : ∀ r ∈ requests, r.generation = s.catalog.generation) :
    { s with catalog := requests.foldl (answered fetch s.config) s.catalog }.supply =
      (requests.map fun r => (⟨r.generation, r.source, fetch r.source r.moduleHints⟩ : Answer)).foldl
        Supply.take s.supply := by
  induction requests generalizing s with
  | nil => rfl
  | cons r requests ih =>
    obtain ⟨now, current⟩ := List.forall_mem_cons.1 current
    have first : answered fetch s.config s.catalog r =
        s.catalog.take s.config r.source (fetch r.source r.moduleHints) := by
      rw [answered, Catalog.receive?, if_pos now]
      rfl
    have rest := ih (s := { s with
      catalog := s.catalog.take s.config r.source (fetch r.source r.moduleHints) }) current
    rw [supply_take s ⟨r.generation, r.source, fetch r.source r.moduleHints⟩] at rest
    rw [List.foldl_cons, first]
    exact rest

theorem resupplies_resolveChoices (fetch : String → List String → Response) (s : Session) :
    s.Resupplies (s.taken (.resolveChoices fetch)) (s.resolveChoices fetch).2 := by
  have current : ∀ r ∈ s.askForChoices.1, r.generation = s.askForChoices.2.catalog.generation := by
    intro r hr
    obtain ⟨source, -, rfl⟩ := List.mem_map.1 hr
    rfl
  refine .took ?_
  exact (supply_settle _).trans (supply_foldl_answered (s := s.askForChoices.2) fetch _ current)

/-- An operation that is refused would not have taken an answer. -/
theorem taken_of_mayRefuse {operation : Operation} (may : mayRefuse operation = true) :
    s.taken operation = [] := by
  cases operation with
  | receiveChoices => cases may
  | resolveChoices => cases may
  | _ => rfl

/-- What operations do to the supply. -/
theorem resupplies_run (s : Session) (operation : Operation) :
    s.Resupplies (s.taken operation) (s.run operation) := by
  have effect := s.effect_run operation
  generalize s.run operation = t at effect ⊢
  cases effect with
  | refused operation may =>
    rw [taken_of_mayRefuse may]
    exact resupplies_same rfl
  | passTime => exact resupplies_same rfl
  | setOperator => exact resupplies_rebuild (by rfl) _
  | loadTemplate => exact resupplies_renew (by rfl) _
  | fetchTemplate => exact resupplies_renew (by rfl) _
  | loadDocument => exact resupplies_rebuild (by rfl) _
  | fetchDocument => exact resupplies_rebuild (by rfl) _
  | setStep => exact resupplies_renew (by rfl) _
  | setValue => exact resupplies_same (supply_settle _)
  | touch => exact resupplies_same rfl
  | addInstance => exact resupplies_rebuild (by rfl) _
  | removeInstance => exact resupplies_rebuild (by rfl) _
  | askForChoices => exact resupplies_same rfl
  | missedChoices generation source response late =>
    rw [taken, if_neg late]
    exact resupplies_same rfl
  | receiveChoices source response =>
    rw [taken, if_pos rfl]
    exact .took ((supply_settle _).trans (supply_take s ⟨_, source, response⟩))
  | resolveChoices fetch => exact resupplies_resolveChoices fetch s
  | select => exact resupplies_same (supply_settle _)
  | deselect => exact resupplies_same (supply_settle _)
  | commitSaved => exact resupplies_same rfl
  | save => exact resupplies_same rfl

/-- A property of what there is to choose from that holds of every form that is just laid out and outlasts
answers. -/
theorem Reachable.supply_of {P : Supply → Prop} (fresh : ∀ x : Supply, x.Fresh → P x)
    (keeps : ∀ x a, P x → P (x.take a)) (h : Reachable s) : P s.supply := by
  induction h with
  | start now config template => exact fresh _ (fresh_rebuild _ _)
  | @run s _ operation ih =>
    cases s.resupplies_run operation with
    | took supply =>
      rw [supply]
      exact Supply.foldl_take_of keeps ih _
    | rebuilt _ made _ _ => exact fresh _ made
    | renewed _ made _ => exact fresh _ made

end Session

/-! ## Who has an offer -/

theorem Field.isSome_offer? (config : Config) (cache : Table (List Json)) (f : Field) :
    (f.offer? config cache).isSome = f.kind.takesChoices := by
  unfold Field.offer?
  split
  · rename_i takes
    rw [takes]
    rfl
  · rename_i takes
    rw [Bool.eq_false_iff.2 takes]
    rfl

namespace Supply

def Serves (x : Supply) : Prop :=
  ∀ id, (x.offer? id).isSome = true ↔
    ∃ p ∈ x.tree.fields, p.controlId = id ∧ p.field.kind.takesChoices = true

theorem Fresh.serves {x : Supply} (h : x.Fresh) : x.Serves := by
  intro id
  rw [h.first]
  constructor
  · intro there
    obtain ⟨o, found⟩ := Option.isSome_iff_exists.1 there
    obtain ⟨p, hp, named, made⟩ := exists_of_first? found
    refine ⟨p, hp, named, ?_⟩
    rw [← Field.isSome_offer? x.config x.cache, ← Option.isSome_map, made]
    rfl
  · rintro ⟨p, hp, rfl, takes⟩
    rw [first?_eq h.distinct hp, Option.isSome_map, Field.isSome_offer?, takes]

theorem Serves.take {x : Supply} (h : x.Serves) (a : Answer) : (x.take a).Serves := by
  intro id
  refine Iff.trans ?_ (h id)
  simp only [Supply.take, Option.isSome_map]

end Supply

theorem Session.Reachable.serves {s : Session} (h : Reachable s) : s.supply.Serves :=
  h.supply_of (fun _ => Supply.Fresh.serves) fun _ a h => h.take a

end Formwork
