import Formwork.Proofs.Removal.Remaining

/-!
# A form with an instance less

A whole form is laid out before and after the removal, group by group.
-/
namespace Formwork

open Progress Blueprint

namespace Removal

variable {r : Removal} {key : String} {outset : Registry} {p q : Progress} {layout layout' : Layout}
  {final : Registry}

section

variable {s : Section} {spec : RepeatSpec} {scope : Scope}

theorem Clean.nameGroup (h : r.Clean key p q) (along : r.Alongside key outset p q) {candidate : String}
    (spared : r.Spares (p.groupName candidate)) :
    r.Clean key (p.nameGroup candidate).2 (q.nameGroup candidate).2 := by
  refine ⟨fun unnamed => ?_, h.carried⟩
  obtain ⟨tidy, tidy'⟩ := h.tidy fun there => unnamed (List.mem_cons_of_mem _ there)
  obtain ⟨-, given⟩ := (along.groupName candidate).resolve_right fun away => away.1 spared
  have spared' : r.Spares (q.groupName candidate) := given.symm ▸ spared
  exact ⟨⟨tidy.controls, List.forall_mem_cons.2 ⟨spared, tidy.groups⟩⟩,
    ⟨tidy'.controls, List.forall_mem_cons.2 ⟨spared', tidy'.groups⟩⟩⟩

theorem Tidy.settled (h : r.Tidy p) (kind : GroupKind)
    (spared : r.Spares (p.groupName (candidate scope s))) :
    r.Tidy (settled layout kind scope s spec p).2 :=
  ⟨h.controls, List.forall_mem_cons.2 ⟨spared, h.groups⟩⟩

theorem Clean.settled (h : r.Clean key p q) (along : r.Alongside key outset p q) (kind : GroupKind)
    (spared : r.Spares (p.groupName (candidate scope s))) :
    r.Clean key (settled layout kind scope s spec p).2 (settled layout' kind scope s spec q).2 := by
  have named := h.nameGroup along spared
  refine ⟨fun unnamed => ?_, named.carried⟩
  obtain ⟨tidy, tidy'⟩ := named.tidy unnamed
  exact ⟨⟨tidy.controls, tidy.groups⟩, ⟨tidy'.controls, tidy'.groups⟩⟩

/-- Counts are settled side by side, if that of any other group is settled as it was recorded. -/
theorem Alongside.settled (h : r.Alongside key outset p q) (kind : GroupKind)
    (fallback : layout'.fallbackMax = layout.fallbackMax)
    (recorded : q.groupName (candidate scope s) ≠ key →
      outset.count? (q.groupName (candidate scope s)) = some (settled layout' kind scope s spec q).1) :
    r.Alongside key outset (Blueprint.settled layout kind scope s spec p).2
      (Blueprint.settled layout' kind scope s spec q).2 := by
  have named := h.nameGroup (candidate scope s)
  refine ⟨named.controls, named.groups, named.distinct.settle _ _, named.distinct'.settle _ _,
    untouched_settled layout' kind scope s spec h.untouched, fun name spared apart => ?_,
    fun name spared => ?_⟩
  · let entry := RepeatEntry.ofSection (q.groupName (candidate scope s)) kind s spec layout'.fallbackMax
    by_cases same : name = entry.key
    · subst same
      exact (settle_self entry _ _).1.trans (recorded apart).symm
    · exact (settle_of_ne same _ _).1.trans (h.fixed name spared apart)
  · rw [entry?_settled, entry?_settled]
    rcases h.groupName (candidate scope s) with ⟨-, given⟩ | ⟨away, away'⟩
    · rw [given, fallback, h.entries name spared]
    · have other : name ≠ p.groupName (candidate scope s) := fun same => away (same ▸ spared)
      have other' : name ≠ q.groupName (candidate scope s) := fun same => away' (same ▸ spared)
      rw [if_neg other, if_neg other', h.entries name spared]

section

variable (contracts : r.Contracts key layout layout' final outset) (kind : GroupKind)
  (h : r.Alongside key outset p q)

include contracts h

/-- The count of another group is settled as before. -/
theorem Contracts.settled_other (spared : r.Spares (p.groupName (candidate scope s)))
    (other : p.groupName (candidate scope s) ≠ key)
    (lasts : (settled layout kind scope s spec p).2.Lasts final) :
    (settled layout' kind scope s spec q).1 = (settled layout kind scope s spec p).1 ∧
      r.Alongside key outset (settled layout kind scope s spec p).2
        (settled layout' kind scope s spec q).2 := by
  obtain ⟨-, given⟩ := (h.groupName (candidate scope s)).resolve_right fun away => away.1 spared
  obtain ⟨recorded, -⟩ := count?_of_lasts layout kind scope s spec lasts
  have recorded' := (contracts.same _ spared other).trans recorded
  rw [← given] at recorded'
  have count : (settled layout' kind scope s spec q).1 = (settled layout kind scope s spec p).1 := by
    obtain ⟨c, clamped⟩ := settled_eq_clamp layout kind scope s spec (p := p)
    rw [settled_of_untouched layout' kind scope s spec h.untouched recorded', clamped,
      contracts.fallback]
    exact RepeatBounds.clamp_clamp _ c
  refine ⟨count, h.settled kind contracts.fallback fun _ => ?_⟩
  rw [recorded', count]

/-- The count of the group itself is settled as one less. -/
theorem Contracts.settled_self (spared : r.Spares (p.groupName (candidate scope s)))
    (self : p.groupName (candidate scope s) = key)
    (lasts : (settled layout kind scope s spec p).2.Lasts final) :
    (settled layout kind scope s spec p).1 = r.count ∧
      (settled layout' kind scope s spec q).1 = r.count - 1 ∧
      r.Alongside key outset (settled layout kind scope s spec p).2
        (settled layout' kind scope s spec q).2 := by
  obtain ⟨-, given⟩ := (h.groupName (candidate scope s)).resolve_right fun away => away.1 spared
  obtain ⟨recorded, entry⟩ := count?_of_lasts layout kind scope s spec lasts
  rw [self] at recorded entry
  have count := Option.some.inj (recorded.symm.trans contracts.count)
  have least : (RepeatBounds.ofSpec spec layout.fallbackMax).min < r.count :=
    contracts.dispensable _ entry
  have lowered : outset.count? (q.groupName (candidate scope s)) = some (r.count - 1) := by
    rw [given, self]
    exact contracts.lowered
  refine ⟨count, ?_, h.settled kind contracts.fallback fun other => absurd (given.trans self) other⟩
  obtain ⟨c, clamped⟩ := settled_eq_clamp layout kind scope s spec (p := p)
  rw [settled_of_untouched layout' kind scope s spec h.untouched lowered, contracts.fallback]
  rw [count] at clamped
  have most := RepeatBounds.clamp_le_max (RepeatBounds.ofSpec spec layout.fallbackMax) c
  rw [← clamped] at most
  have brought : ∀ n, (RepeatBounds.ofSpec spec layout.fallbackMax).clamp n =
      Min.min (Max.max n (RepeatBounds.ofSpec spec layout.fallbackMax).min)
        (RepeatBounds.ofSpec spec layout.fallbackMax).max := fun _ => rfl
  rw [brought]
  omega

end

end

theorem Contracts.spares_key (contracts : r.Contracts key layout layout' final outset) :
    r.Spares key := by
  refine spares_of_length_lt ?_
  rw [contracts.stem, String.length_append]
  have : "_".length = 1 := rfl
  omega

section

variable (kind : GroupKind) {scope : Scope} {s : Section} (fields : List Field)
  {subsections : List Blueprint}

/-- A section that does not repeat. -/
theorem layOut_contracted_of_plain (hs : s.repeats? = none)
    (below : r.BelowContracted key layout layout' final outset scope subsections)
    (h : r.Alongside key outset p q)
    (lasts : (layOut layout kind scope p ⟨s, fields, subsections⟩).2.Lasts final) :
    let laid := layOut layout kind scope p ⟨s, fields, subsections⟩
    let laid' := layOut layout' kind scope q ⟨s, fields, subsections⟩
    r.Contracted key outset p q laid.2 laid'.2 (Group.fieldsOutside key laid.1)
      (Group.fieldsOutside key laid'.1) (Group.groupsOutside key laid.1)
      (laid'.1 = laid.1.without key r) := by
  rw [layOut_of_plain layout kind scope p fields subsections hs] at lasts
  rw [layOut_of_plain layout kind scope p fields subsections hs,
    layOut_of_plain layout' kind scope q fields subsections hs]
  have body := layOutBody_contracted fields below (h.nameGroup (candidate scope s)) lasts
  have plain : (none : Option String) ≠ some key := nofun
  simp only [Group.fieldsOutside, Group.groupsOutside, if_neg plain, GroupInstance.listFieldsOutside,
    GroupInstance.listGroupsOutside, List.append_nil]
  refine ⟨body.alongside, body.kept, fun spared spared' clean => ?_⟩
  have first := spared' _ List.mem_cons_self
  change r.Spares (p.groupName (candidate scope s)) at first
  obtain ⟨-, given⟩ := (h.groupName (candidate scope s)).resolve_right fun away => away.1 first
  obtain ⟨same, clean⟩ := body.exact spared (fun g hg => spared' g (List.mem_cons_of_mem _ hg))
    (clean.nameGroup h first)
  refine ⟨?_, clean⟩
  rw [same, nameGroup_eq, nameGroup_eq, Group.without, if_neg plain]
  dsimp only
  rw [given]
  rfl

variable (contracts : r.Contracts key layout layout' final outset) {spec : RepeatSpec}
  (hs : s.repeats? = some spec)

include contracts hs

/-- A section that repeats, under a name that is not spared. -/
theorem layOut_contracted_of_away (h : r.Alongside key outset p q)
    (away : ¬r.Spares (p.groupName (candidate scope s)))
    (away' : ¬r.Spares (q.groupName (candidate scope s))) :
    let laid := layOut layout kind scope p ⟨s, fields, subsections⟩
    let laid' := layOut layout' kind scope q ⟨s, fields, subsections⟩
    r.Contracted key outset p q laid.2 laid'.2 (Group.fieldsOutside key laid.1)
      (Group.fieldsOutside key laid'.1) (Group.groupsOutside key laid.1)
      (laid'.1 = laid.1.without key r) := by
  intro laid laid'
  have grown := layOut_grown_of_repeated layout kind scope hs fields h.distinct
    fun key index => layOutList_grown layout (instanceScope scope key index) subsections
  have grown' := layOut_grown_of_repeated layout' kind scope hs fields h.distinct'
    fun key index => layOutList_grown layout' (instanceScope scope key index) subsections
  refine ⟨?_, fun f hf spared => ?_, fun _ spared _ => ?_⟩
  · exact h.aside (.of_grown grown away) (.of_grown grown' away') grown.distinct grown'.distinct
      (h.untouched.after grown')
  · exact absurd (.of_grown_field grown (Group.fieldsOutside_subset key _ hf) spared) away
  · have named : laid.1.key = p.groupName (candidate scope s) ∧
        laid.1.repeatKey = some (p.groupName (candidate scope s)) := by
      have eq := layOut_of_settled layout kind scope p fields subsections hs
      exact ⟨congrArg (fun l => l.1.key) eq, congrArg (fun l => l.1.repeatKey) eq⟩
    have other : laid.1.repeatKey ≠ some key := by
      rw [named.2]
      intro same
      exact away (Option.some.inj same ▸ contracts.spares_key)
    have first := spared _ (Group.mem_groupsOutside_self key other)
    rw [named.1] at first
    exact absurd first away

/-- Another section that repeats, under a name that is spared. -/
theorem layOut_contracted_of_other (h : r.Alongside key outset p q)
    (below : ∀ index, r.BelowContracted key layout layout' final outset
      (instanceScope scope (p.groupName (candidate scope s)) index) subsections)
    (spared : r.Spares (p.groupName (candidate scope s)))
    (other : p.groupName (candidate scope s) ≠ key)
    (lasts : (layOut layout kind scope p ⟨s, fields, subsections⟩).2.Lasts final) :
    let laid := layOut layout kind scope p ⟨s, fields, subsections⟩
    let laid' := layOut layout' kind scope q ⟨s, fields, subsections⟩
    r.Contracted key outset p q laid.2 laid'.2 (Group.fieldsOutside key laid.1)
      (Group.fieldsOutside key laid'.1) (Group.groupsOutside key laid.1)
      (laid'.1 = laid.1.without key r) := by
  rw [layOut_of_settled layout kind scope p fields subsections hs] at lasts
  rw [layOut_of_settled layout kind scope p fields subsections hs,
    layOut_of_settled layout' kind scope q fields subsections hs]
  obtain ⟨-, given⟩ := (h.groupName (candidate scope s)).resolve_right fun away => away.1 spared
  have grown := layOutInstances_grown layout scope (p.groupName (candidate scope s))
    (s.instanceLabel spec) fields subsections (distinct_settled layout kind scope s spec h.distinct)
    (List.range' 1 (settled layout kind scope s spec p).1)
  obtain ⟨count, along⟩ := contracts.settled_other kind h spared other
    (lasts.before grown)
  have instances := layOutInstances_contracted (p.groupName (candidate scope s))
    (s.instanceLabel spec) fields below along
    (List.range' 1 (settled layout kind scope s spec p).1) lasts
  have apart : some (p.groupName (candidate scope s)) ≠ some key := fun same =>
    other (Option.some.inj same)
  rw [given, count]
  simp only [Group.fieldsOutside, Group.groupsOutside, if_neg apart]
  refine ⟨instances.alongside, instances.kept, fun tidy tidy' clean => ?_⟩
  obtain ⟨same, clean⟩ := instances.exact tidy (fun g hg => tidy' g (List.mem_cons_of_mem _ hg))
    (clean.settled h kind spared)
  refine ⟨?_, clean⟩
  rw [same, Group.without, if_neg apart]

/-- The section that repeats as the group itself. -/
theorem layOut_contracted_of_self (nested : scope.Nested) (h : r.Alongside key outset p q)
    (below : ∀ index, r.BelowContracted key layout layout' final outset
      (instanceScope scope key index) subsections)
    (self : p.groupName (candidate scope s) = key)
    (lasts : (layOut layout kind scope p ⟨s, fields, subsections⟩).2.Lasts final) :
    let laid := layOut layout kind scope p ⟨s, fields, subsections⟩
    let laid' := layOut layout' kind scope q ⟨s, fields, subsections⟩
    r.Contracted key outset p q laid.2 laid'.2 (Group.fieldsOutside key laid.1)
      (Group.fieldsOutside key laid'.1) (Group.groupsOutside key laid.1)
      (laid'.1 = laid.1.without key r) := by
  have spared : r.Spares (p.groupName (candidate scope s)) := self.symm ▸ contracts.spares_key
  obtain ⟨-, given⟩ := (h.groupName (candidate scope s)).resolve_right fun away => away.1 spared
  rw [layOut_of_settled layout kind scope p fields subsections hs] at lasts
  rw [layOut_of_settled layout kind scope p fields subsections hs,
    layOut_of_settled layout' kind scope q fields subsections hs]
  have grown := layOutInstances_grown layout scope (p.groupName (candidate scope s))
    (s.instanceLabel spec) fields subsections (distinct_settled layout kind scope s spec h.distinct)
    (List.range' 1 (settled layout kind scope s spec p).1)
  obtain ⟨count, count', along⟩ := contracts.settled_self kind h spared self (lasts.before grown)
  have named : key ∈ (settled layout kind scope s spec p).2.groupKeys := self ▸ List.mem_cons_self
  have begins := groupName_begins p scope s
  rw [self, count] at lasts grown
  rw [self] at begins
  have around := map_renamedFrame nested contracts.stem begins contracts.range
  obtain ⟨after, exact⟩ := layOutInstances_remaining contracts (s.instanceLabel spec) fields around below
    along named lasts
  rw [given, self, count, count']
  have same : some key = some key := rfl
  simp only [Group.fieldsOutside, Group.groupsOutside]
  refine ⟨after, fun _ hf => absurd hf List.not_mem_nil, fun _ _ clean => ?_⟩
  have unnamed : key ∉ p.groupKeys := self ▸ p.groupName_not_mem (candidate scope s)
  obtain ⟨tidy, tidy'⟩ := clean.tidy unnamed
  obtain ⟨remaining, carried⟩ := exact (tidy.settled kind spared)
    (tidy'.settled kind (given.symm ▸ spared)) clean.carried
  refine ⟨?_, fun absent => absurd ?_ absent, carried⟩
  · rw [remaining, Group.without, if_pos same]
  · rw [grown.groupKeys]
    exact List.mem_append_right _ named

end

mutual

/-- A section is laid out side by side before and after the removal. -/
theorem layOut_contracted (contracts : r.Contracts key layout layout' final outset) (kind : GroupKind)
    {scope : Scope} (nested : scope.Nested) :
    ∀ (b : Blueprint) {p q : Progress}, r.Alongside key outset p q →
      (layOut layout kind scope p b).2.Lasts final →
      let laid := layOut layout kind scope p b
      let laid' := layOut layout' kind scope q b
      r.Contracted key outset p q laid.2 laid'.2 (Group.fieldsOutside key laid.1)
        (Group.fieldsOutside key laid'.1) (Group.groupsOutside key laid.1)
        (laid'.1 = laid.1.without key r)
  | ⟨s, fields, subsections⟩, p, q, h, lasts => by
    cases hs : s.repeats? with
    | none =>
      exact layOut_contracted_of_plain kind fields hs
        (layOutList_contracted contracts nested subsections) h lasts
    | some spec =>
      have begins := groupName_begins p scope s
      have below : ∀ index, r.BelowContracted key layout layout' final outset
          (instanceScope scope (p.groupName (candidate scope s)) index) subsections := fun index =>
        layOutList_contracted contracts (nested.instanceScope begins index) subsections
      rcases h.groupName (candidate scope s) with ⟨spared, -⟩ | ⟨away, away'⟩
      · by_cases self : p.groupName (candidate scope s) = key
        · exact layOut_contracted_of_self kind fields contracts hs nested h (self ▸ below) self lasts
        · exact layOut_contracted_of_other kind fields contracts hs h below spared self lasts
      · exact layOut_contracted_of_away kind fields contracts hs h away away'

theorem layOutList_contracted (contracts : r.Contracts key layout layout' final outset)
    {scope : Scope} (nested : scope.Nested) :
    ∀ l : List Blueprint, r.BelowContracted key layout layout' final outset scope l
  | [], p, q, h, lasts => by
    simp only [layOutList]
    exact (Contracted.refl h).imp fun _ => rfl
  | b :: rest, p, q, h, lasts => by
    rw [layOutList_cons] at lasts
    have others := layOutList_grown layout scope rest
      (layOut_grown layout .subsection scope b h.distinct).distinct
    have first := layOut_contracted contracts .subsection nested b h (lasts.before others)
    have later := layOutList_contracted contracts nested rest first.alongside lasts
    rw [layOutList_cons, layOutList_cons]
    refine (first.trans later).imp ?_
    rintro ⟨same, same'⟩
    exact List.cons_eq_cons.2 ⟨same, same'⟩

end

theorem layOutSections_contracted (contracts : r.Contracts key layout layout' final outset)
    (h : r.Alongside key outset p q) (l : List Blueprint) :
    let laid := threaded (layOut layout .topSection []) p l
    let laid' := threaded (layOut layout' .topSection []) q l
    laid.2.Lasts final →
      r.Contracted key outset p q laid.2 laid'.2 (Group.listFieldsOutside key laid.1)
        (Group.listFieldsOutside key laid'.1) (Group.listGroupsOutside key laid.1)
        (laid'.1 = Group.listWithout key r laid.1) := by
  induction l generalizing p q with
  | nil => exact fun _ => (Contracted.refl h).imp fun _ => rfl
  | cons b l ih =>
    intro laid laid' lasts
    have others :=
      layOutSections_grown layout (layOut_grown layout .topSection [] b h.distinct).distinct l
    have nested : Scope.Nested [] := fun _ hf => absurd hf List.not_mem_nil
    have first := layOut_contracted contracts .topSection nested b h (lasts.before others)
    refine (first.trans (ih first.alongside lasts)).imp ?_
    rintro ⟨same, same'⟩
    exact List.cons_eq_cons.2 ⟨same, same'⟩

end Removal

namespace FormTree

open Removal

variable {r : Removal} {key : String} {layout layout' : Layout} {template : Template}
  {registry registry' final : Registry} {old : FormTree}

/-- The form after a removal: the controls outside of the group that have spared names are there, counts
under spared names are as recorded, what is entered under them is the same, and if all names outside are
spared then nothing but the removal has changed. -/
theorem build_contracted (built : build layout template registry = (old, final))
    (contracts : r.Contracts key layout layout' final registry') (step : layout'.step = layout.step) :
    let new := build layout' template registry'
    (∀ f ∈ old.fieldsOutside key, r.Spares f.controlId → f ∈ new.1.fieldsOutside key) ∧
    (∀ other, r.Spares other → other ≠ key → new.2.count? other = registry'.count? other) ∧
    (∀ name, r.Spares name → Registry.entry? name new.2 = final.entry? name) ∧
    ((∀ f ∈ old.fieldsOutside key, r.Spares f.controlId) →
      (∀ g ∈ old.groupsOutside key, r.Spares g.key) →
      new.1 = old.without key r ∧
        ∀ f ∈ old.fields, r.Fate (new.1.fields.map (·.controlId)) f.controlId) := by
  obtain ⟨rfl, rfl⟩ : (build layout template registry).1 = old ∧
      (build layout template registry).2 = final := by
    rw [built]
    exact ⟨rfl, rfl⟩
  have along : r.Alongside key registry' (outset registry) (outset registry') :=
    ⟨fun _ _ => Iff.rfl, fun _ _ => Iff.rfl, ⟨.nil, .nil⟩, ⟨.nil, .nil⟩, fun _ _ => rfl,
      fun _ _ _ => rfl, fun _ _ => rfl⟩
  have contracted := layOutSections_contracted contracts along (template.blueprints layout.step)
    fun _ _ => ⟨rfl, rfl⟩
  have new : build layout' template registry' =
      (⟨(threaded (Blueprint.layOut layout' .topSection []) (outset registry')
          (template.blueprints layout.step)).1⟩,
        (threaded (Blueprint.layOut layout' .topSection []) (outset registry')
          (template.blueprints layout.step)).2.registry) := by
    rw [← step]
    rfl
  rw [new]
  refine ⟨contracted.kept, contracted.alongside.fixed, contracted.alongside.entries,
    fun spared spared' => ?_⟩
  have tidy : ∀ registry, r.Tidy (outset registry) := fun _ => ⟨nofun, nofun⟩
  obtain ⟨same, clean⟩ := contracted.exact spared spared' ⟨fun _ => ⟨tidy _, tidy _⟩, nofun⟩
  refine ⟨congrArg FormTree.mk same, fun f hf => ?_⟩
  have grown := layOutSections_grown layout along.distinct (template.blueprints layout.step)
  have grown' := layOutSections_grown layout' along.distinct' (template.blueprints layout.step)
  have named : f.controlId ∈ (threaded (Blueprint.layOut layout .topSection []) (outset registry)
      (template.blueprints layout.step)).2.controlIds :=
    grown.controlIds ▸ List.mem_append_left _ (List.mem_reverse.2 (List.mem_map_of_mem hf))
  refine (clean.carried f.controlId named).mono fun name there => ?_
  rw [grown'.controlIds, List.mem_append, List.mem_reverse] at there
  exact there.resolve_right List.not_mem_nil

end FormTree

end Formwork
