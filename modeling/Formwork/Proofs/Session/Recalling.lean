import Formwork.Proofs.Answers.Failing
import Formwork.Proofs.Session.Supply
import Formwork.Proofs.Session.Trails

/-!
# Choices that would be there again

Rows are kept until a new generation begins, and a form that is laid out anew has its choices from them. They
are the choices that it has already, unless a source has failed after it has brought rows. Where a source has
only failed, the form that is laid out anew waits for it again, and has no choices from it either.
-/
namespace Formwork

def Response.fails : Response → Bool
  | .rows _ => false
  | .failed => true

/-- A source fails in the generation in which it has brought rows. -/
structure Answer.Relapses (before after : Answer) : Prop where
  generation : before.generation = after.generation
  source : before.source = after.source
  brought : before.response.fails = false
  fails : after.response.fails = true

instance (before after : Answer) : Decidable (before.Relapses after) :=
  decidable_of_iff (before.generation = after.generation ∧ before.source = after.source ∧
      before.response.fails = false ∧ after.response.fails = true)
    ⟨fun ⟨generation, source, brought, fails⟩ => ⟨generation, source, brought, fails⟩,
      fun h => ⟨h.generation, h.source, h.brought, h.fails⟩⟩

/-- The answers that a run takes, in order. -/
def Session.heard (s : Session) (operations : List Operation) : List Answer :=
  (s.trail operations).flatMap fun x => x.1.taken x.2

structure Offer.Keeps (first o : Offer) : Prop where
  contents : o.contents = first.contents
  loaded : first.loaded = true → o.loaded = true

namespace Offer

variable {first o : Offer}

theorem Keeps.source (h : first.Keeps o) : o.source = first.source := by
  have source := congrArg Offer.source h.contents
  exact source

theorem Keeps.all (h : first.Keeps o) : o.all = first.all := by
  have all := congrArg Offer.all h.contents
  exact all

/-- The rows that arrive for one offer arrive for the other one. -/
theorem Keeps.fill (h : first.Keeps o) (config : Config) (source : String) (rows : List Json) :
    (first.fill config source rows).Keeps (o.fill config source rows) := by
  obtain ⟨name, all, available, loaded, maxOptions⟩ := o
  have same : name = first.source := h.source
  have limit : maxOptions = first.maxOptions := congrArg Offer.maxOptions h.contents
  subst same limit
  exact ⟨rfl, fun _ => rfl⟩

/-- An offer without choices may as well have arrived without rows. -/
theorem Keeps.fail (h : first.Keeps o) (none : first.all = []) (config : Config) (source : String) :
    first.Keeps (o.fill config source Response.failed.answer) := by
  have all : ([] : List Choice) = o.all := (h.all.trans none).symm
  have failed : (o.fill config source Response.failed.answer).contents = o.contents := by
    rw [fill_failed, Offer.contents, Offer.contents, ← all]
  exact ⟨failed.trans h.contents, fun _ => rfl⟩

end Offer

namespace Field

variable {config : Config} {cache : Table (List Json)} {f : Field} {source : String}

/-- The rows that are kept fill the offers of their source. -/
theorem offer?_insert (config : Config) (cache : Table (List Json)) (f : Field) (source : String)
    (rows : List Json) : f.offer? config (Table.insert source rows cache) =
      (f.offer? config cache).map fun o =>
        if o.source = some source then o.fill config source rows else o := by
  unfold offer?
  by_cases takes : f.kind.takesChoices = true
  · rw [if_pos takes, if_pos takes, Option.map_some]
    cases f.options.getD [] with
    | cons entry entries => rfl
    | nil =>
      cases named : f.dataSource.filter fun s => !Text.isBlankText s with
      | none => rfl
      | some name =>
        by_cases same : name = source
        · subst same
          simp only [Table.get?_insert_self]
          cases Table.get? name cache <;> simp [Offer.fill, Offer.awaiting]
        · simp only [Table.get?_insert_of_ne same]
          cases Table.get? name cache <;> simp [Offer.fill, Offer.awaiting, same]
  · rw [if_neg takes, if_neg takes, Option.map_none]

/-- There is no choice from a source of which no rows are kept. -/
theorem all_of_unanswered {o : Offer} (made : f.offer? config cache = some o)
    (named : o.source = some source) (absent : Table.has source cache = false) : o.all = [] := by
  unfold offer? at made
  split at made
  · cases entries : f.options.getD [] with
    | cons entry rest =>
      simp only [entries, Option.some.injEq] at made
      rw [← made] at named
      cases named
    | nil =>
      cases given : f.dataSource.filter fun s => !Text.isBlankText s with
      | none =>
        simp only [entries, given, Option.some.injEq] at made
        rw [← made] at named
        cases named
      | some name =>
        cases found : Table.get? name cache with
        | none =>
          simp only [entries, given, found, Option.some.injEq] at made
          rw [← made]
          rfl
        | some rows =>
          simp only [entries, given, found, Option.some.injEq] at made
          rw [← made] at named
          obtain rfl := Option.some.inj named
          rw [Table.has, found] at absent
          cases absent
  · cases made

end Field

namespace Supply

/-- The offers are those that would be made again, and rows are kept only of sources that have brought them in
this generation. -/
structure Lasts (past : List Answer) (x : Supply) : Prop where
  offers : ∀ p ∈ x.tree.fields,
    Option.Rel Offer.Keeps (p.field.offer? x.config x.cache) (x.offer? p.controlId)
  rows : ∀ source, Table.has source x.cache = true →
    ∃ a ∈ past, a.generation = x.generation ∧ a.source = source ∧ a.response.fails = false

variable {past : List Answer} {x : Supply} {a : Answer}

theorem Fresh.lasts (h : x.Fresh) (rows : ∀ source, Table.has source x.cache = true →
    ∃ a ∈ past, a.generation = x.generation ∧ a.source = source ∧ a.response.fails = false) :
    x.Lasts past where
  offers := by
    intro p hp
    rw [h.first, first?_eq h.distinct hp]
    cases p.field.offer? x.config x.cache with
    | none => exact .none
    | some o => exact .some ⟨rfl, id⟩
  rows := rows

theorem Lasts.take_rows (h : x.Lasts past) (generation : Nat) (source : String) (rows : List Json) :
    (x.take ⟨generation, source, .rows rows⟩).Lasts (past ++ [⟨x.generation, source, .rows rows⟩]) where
  offers := by
    intro p hp
    have kept := h.offers p hp
    simp only [take, Field.offer?_insert]
    generalize p.field.offer? x.config x.cache = first, x.offer? p.controlId = o at kept ⊢
    cases kept with
    | none => exact .none
    | @some first o kept =>
      refine .some ?_
      dsimp only
      rw [kept.source]
      split
      · exact ⟨(kept.fill x.config source rows).contents, fun _ => rfl⟩
      · exact kept
  rows := by
    intro other there
    by_cases same : other = source
    · exact ⟨_, List.mem_append_right _ List.mem_cons_self, rfl, same.symm, rfl⟩
    · rw [Table.has, take, Table.get?_insert_of_ne same] at there
      obtain ⟨b, hb, told⟩ := h.rows other there
      exact ⟨b, List.mem_append_left _ hb, told⟩

/-- A source that fails has brought no rows before. -/
theorem Lasts.take_failed (h : x.Lasts past) (generation : Nat) {source : String}
    (absent : Table.has source x.cache = false) :
    (x.take ⟨generation, source, .failed⟩).Lasts past where
  offers := by
    intro p hp
    have kept := h.offers p hp
    simp only [take]
    generalize made : p.field.offer? x.config x.cache = first, x.offer? p.controlId = o at kept ⊢
    cases kept with
    | none => exact .none
    | @some first o kept =>
      refine .some ?_
      dsimp only
      split
      · rename_i named
        have none := Field.all_of_unanswered made (kept.source.symm.trans named) absent
        exact ⟨(kept.fail none x.config source).contents, fun _ => rfl⟩
      · exact kept
  rows := h.rows

theorem Lasts.more (h : x.Lasts past) (a : Answer) : x.Lasts (past ++ [a]) where
  offers := h.offers
  rows source there := by
    obtain ⟨b, hb, told⟩ := h.rows source there
    exact ⟨b, List.mem_append_left _ hb, told⟩

theorem Lasts.take (h : x.Lasts past) (current : a.generation = x.generation)
    (steady : ∀ b ∈ past, ¬b.Relapses a) : (x.take a).Lasts (past ++ [a]) := by
  obtain ⟨generation, source, response⟩ := a
  obtain rfl : generation = x.generation := current
  cases response with
  | rows rows => exact h.take_rows _ source rows
  | failed =>
    refine Lasts.more (h.take_failed _ ?_) _
    rw [← Bool.not_eq_true]
    intro there
    obtain ⟨b, hb, generation, rfl, brought⟩ := h.rows source there
    exact steady b hb ⟨generation, rfl, brought, rfl⟩

theorem Lasts.foldl_take (h : x.Lasts past) {answers : List Answer}
    (current : ∀ a ∈ answers, a.generation = x.generation)
    (steady : (past ++ answers).Pairwise fun b a => ¬b.Relapses a) :
    (answers.foldl Supply.take x).Lasts (past ++ answers) := by
  induction answers generalizing past x with
  | nil => rwa [List.append_nil]
  | cons a answers ih =>
    obtain ⟨now, current⟩ := List.forall_mem_cons.1 current
    have first := (List.pairwise_append.1 steady).2.2
    rw [List.append_cons] at steady ⊢
    exact ih (h.take now fun b hb => first b hb a List.mem_cons_self) current steady

end Supply

namespace Session

variable {s : Session} {past : List Answer}

/-- Answers are taken in the generation to which they belong. -/
theorem generation_of_mem_taken {operation : Operation} {a : Answer} (h : a ∈ s.taken operation) :
    a.generation = s.supply.generation := by
  cases operation with
  | receiveChoices generation source response =>
    rw [taken] at h
    split at h
    · rename_i now
      obtain rfl := List.mem_singleton.1 h
      exact now
    · cases h
  | resolveChoices fetch =>
    obtain ⟨r, hr, rfl⟩ := List.mem_map.1 h
    obtain ⟨source, -, rfl⟩ := List.mem_map.1 hr
    rfl
  | _ => cases h

theorem lasts_run (h : s.supply.Lasts past) (operation : Operation)
    (steady : (past ++ s.taken operation).Pairwise fun b a => ¬b.Relapses a) :
    (s.run operation).supply.Lasts (past ++ s.taken operation) := by
  cases s.resupplies_run operation with
  | took supply =>
    rw [supply]
    exact h.foldl_take (fun _ => generation_of_mem_taken) steady
  | rebuilt none fresh generation cache =>
    rw [none, List.append_nil]
    refine fresh.lasts fun source there => ?_
    have kept : Table.has source (s.run operation).catalog.cache = true := there
    rw [cache] at kept
    obtain ⟨a, ha, current, told⟩ := h.rows source kept
    exact ⟨a, ha, current.trans generation.symm, told⟩
  | renewed none fresh cache =>
    refine fresh.lasts fun source there => ?_
    have forgotten : Table.has source (s.run operation).supply.cache = false :=
      congrArg (Table.has source) cache
    rw [forgotten] at there
    cases there

theorem lasts_runAll (h : s.supply.Lasts past) {operations : List Operation}
    (steady : (past ++ s.heard operations).Pairwise fun b a => ¬b.Relapses a) :
    (s.runAll operations).supply.Lasts (past ++ s.heard operations) := by
  induction operations generalizing past s with
  | nil => rwa [heard, trail, List.flatMap_nil, List.append_nil]
  | cons operation rest ih =>
    have heard : s.heard (operation :: rest) = s.taken operation ++ (s.run operation).heard rest :=
      List.flatMap_cons
    rw [heard, ← List.append_assoc] at steady ⊢
    exact ih (lasts_run h operation (List.pairwise_append.1 steady).1) steady

/-- In a run in which no source fails after it has brought rows, the offers are those that would be made
again. -/
theorem lasts_start (now : String) (config : Config) (template : Template) {operations : List Operation}
    (steady : ((start now config template).heard operations).Pairwise fun b a => ¬b.Relapses a) :
    ((start now config template).runAll operations).supply.Lasts
      ((start now config template).heard operations) := by
  obtain ⟨u, begun, cache⟩ : ∃ u : Session, start now config template = u.rebuild [] ∧
      u.catalog.cache = [] := ⟨_, rfl, rfl⟩
  have forgotten (source : String) : Table.has source (start now config template).supply.cache = false := by
    have empty := (catalog_rebuild [] u).2.trans cache
    rw [begun]
    exact congrArg (Table.has source) empty
  have first : (start now config template).supply.Lasts [] := by
    refine Supply.Fresh.lasts (begun ▸ fresh_rebuild [] u) fun source there => ?_
    rw [forgotten] at there
    cases there
  exact lasts_runAll first steady

end Session

end Formwork
