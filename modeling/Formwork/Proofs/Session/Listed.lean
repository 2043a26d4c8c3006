import Formwork.Proofs.Session.Binding
import Formwork.Proofs.Session.Spelling

/-!
# Choices that the template lists

The choices that a template lists are on hand in every form that can be reached, whatever sources have
answered. All values are in their spelling, unless there is a list among these choices.
-/
namespace Formwork

/-- An offer that has arrived where no source has answered is made whatever has been answered. -/
theorem Field.offer?_of_loaded {config : Config} {f : Field} {o : Offer}
    (made : f.offer? config [] = some o) (loaded : o.loaded = true) (cache : Table (List Json)) :
    f.offer? config cache = some o ∧ o.source = none := by
  unfold Field.offer? at made ⊢
  split at made
  · rename_i takes
    rw [if_pos takes]
    cases entries : f.options.getD [] with
    | nil =>
      cases source : f.dataSource.filter fun s => !Text.isBlankText s with
      | none =>
        simp only [entries, source, Option.some.injEq] at made ⊢
        exact ⟨made, made ▸ rfl⟩
      | some name =>
        simp only [entries, source, Table.get?, Option.some.injEq] at made
        rw [← made] at loaded
        cases loaded
    | cons first rest =>
      simp only [entries, Option.some.injEq] at made ⊢
      exact ⟨made, made ▸ rfl⟩
  · cases made

namespace Session

variable {s t : Session}

/-- The offers of the template, as they are made where no source has answered. -/
def listed (s : Session) : Catalog := Catalog.empty.bind s.config s.tree

def Lists (s : Session) : Prop :=
  ∀ id o, s.listed.offer? id = some o → o.loaded = true →
    o.source = none ∧ s.catalog.shut? id = some o.shut

theorem Lists.within (h : s.Lists) : s.listed.Within s.catalog := by
  intro id o found loaded
  obtain ⟨-, there⟩ := h id o found loaded
  refine Catalog.exists_offer_of_shut ?_ found
  rw [there, Catalog.shut?, found, Option.map_some]

/-- No choice that the template lists has a list with items as its value. -/
def Flat (s : Session) : Prop :=
  ∀ id o, s.listed.offer? id = some o → ∀ c ∈ o.all, ∀ items, c.value = .arr items → items = []

/-- The values are in the spelling of the choices that the template lists. -/
def Spelt (s : Session) : Prop := ∀ b ∈ s.controls, s.listed.Spelled b

/-- The offers of a form that is just laid out, and answers leave alone what the template lists. -/
theorem Reachable.lists (h : Reachable s) : s.Lists := by
  refine h.supply_of (P := fun x => ∀ id o, (Catalog.empty.bind x.config x.tree).offer? id = some o →
    o.loaded = true → o.source = none ∧ x.offer? id = some o.shut) ?_ ?_
  · intro x fresh id o found loaded
    obtain ⟨p, hp, rfl, made⟩ := Catalog.empty.exists_of_offer?_bind found
    obtain ⟨again, listed⟩ := Field.offer?_of_loaded made loaded x.cache
    rw [fresh.first, Supply.first?_eq fresh.distinct hp, again]
    exact ⟨listed, rfl⟩
  · intro x a lists id o found loaded
    obtain ⟨listed, there⟩ := lists id o found loaded
    refine ⟨listed, ?_⟩
    have other : ¬o.shut.source = some a.source := by
      rw [show o.shut.source = o.source from rfl, listed]
      exact nofun
    simp only [Supply.take, there, Option.map_some, if_neg other]

/-- Unless there is a list among the choices that the template lists, all values are in their spelling. -/
theorem Reachable.spelt (h : Reachable s) (flat : s.Flat) : s.Spelt := by
  have flat' : s.listed.Flat := flat
  have within := h.lists.within
  induction h with
  | start now config template => exact (founded_bind _ _).spelled flat' within
  | @run s reachable operation ih =>
    refine (respells_run reachable.standing operation).spelled_of flat' within (c := s.listed) ?_ ?_
    · intro offers id
      rw [listed, listed, offers.config, offers.tree]
    · exact fun flat => ih flat flat reachable.lists.within

end Session

end Formwork
