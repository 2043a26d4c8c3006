import Formwork.Proofs.Dependents.Deciding
import Formwork.Proofs.Saving
import Formwork.Proofs.Value.Likeness

/-!
# Controls and the controls they depend on

In a form that can be reached, the value of a dependent control contradicts none of the controls it
depends on, however many these are and even if the dependencies form a cycle. Lock and choices are
another matter. They are as the last of the dependencies asks for, so that where a control has several
parents only one of them is sure to restrict it.
-/
namespace Formwork

namespace Choice

/-- The row of the choice names a value of the parent under a property. -/
def Links (link : String) (parent : Json) (c : Choice) : Prop :=
  ∃ named, c.raw.member? link = some named ∧
    ∃ text ∈ scalarTexts named, text ∈ scalarTexts parent.unwrap

variable {choices : List Choice} {link : String} {parent : Json} {c : Choice}

theorem linksTo_iff {named : Json} :
    linksTo parent named = true ↔ ∃ text ∈ scalarTexts named, text ∈ scalarTexts parent.unwrap := by
  simp [linksTo]

theorem mem_narrow_iff (filled : parent.isFilled = true) :
    c ∈ narrow choices link parent ↔ c ∈ choices ∧ c.Links link parent := by
  rw [narrow, if_pos filled, List.mem_filter]
  refine and_congr_right fun _ => ?_
  unfold Links
  cases c.raw.member? link with
  | none => simp
  | some named => simp [linksTo_iff]

theorem narrow_of_empty (empty : parent.isFilled = false) : narrow choices link parent = [] := by
  simp [narrow, empty]

end Choice

/-- The value of a child contradicts that of its parent neither where the parent is empty nor where the
choices are known: there, each of its values is a choice that links to the parent. -/
structure Agrees (link : String) (parent child : Json) (offer : Option Offer) : Prop where
  empty : parent.isFilled = false → child.isFilled = false
  linked : parent.isFilled = true → ∀ o, offer = some o → o.loaded = true → child.isFilled = true →
    ∀ part ∈ child.parts, ∃ choice ∈ o.all,
      choice.Links link parent ∧ choice.value.looselyEqual part = true

/-- A parent restricts its child: while it is empty the child is locked, disabled and without choices,
and otherwise only choices that link to it are on offer. -/
structure Restricts (link : String) (parent : Json) (child : Control) (offer : Option Offer) : Prop where
  empty : parent.isFilled = false → child.dependencyLocked = true ∧ child.disabled = true ∧
    ∀ o, offer = some o → o.available = []
  filled : parent.isFilled = true → ∀ o, offer = some o → ∀ choice ∈ o.available,
    choice.Links link parent

/-- Where one parent has decided the lock and the choices of a control, another one restricts it as well
just if it is filled in wherever the first one is, and every choice that is left links to it. -/
theorem Restricts.iff_of_decided {decisive other : Json} {link link' : String} {child : Control}
    {offer : Option Offer} (restricts : Restricts link decisive child offer)
    (locked : child.dependencyLocked = !decisive.isFilled)
    (choices : ∀ o, offer = some o → o.available = Choice.narrow o.all link decisive) :
    Restricts link' other child offer ↔
      (decisive.isFilled = true → other.isFilled = true) ∧
        ∀ o, offer = some o → ∀ choice ∈ o.all,
          decisive.isFilled = true → choice.Links link decisive → choice.Links link' other := by
  constructor
  · intro also
    have filled : decisive.isFilled = true → other.isFilled = true := by
      intro filled
      by_contra empty
      have held := (also.empty (by simpa using empty)).1
      rw [locked, filled] at held
      cases held
    refine ⟨filled, fun o found choice hchoice unlocked links => ?_⟩
    refine also.filled (filled unlocked) o found choice ?_
    rw [choices o found]
    exact (Choice.mem_narrow_iff unlocked).2 ⟨hchoice, links⟩
  · rintro ⟨filled, links⟩
    constructor
    · intro empty
      refine restricts.empty ?_
      by_contra unlocked
      rw [filled (by simpa using unlocked)] at empty
      cases empty
    · intro _ o found choice offered
      rw [choices o found] at offered
      cases unlocked : decisive.isFilled with
      | false =>
        rw [Choice.narrow_of_empty unlocked] at offered
        cases offered
      | true =>
        obtain ⟨hchoice, hlinks⟩ := (Choice.mem_narrow_iff unlocked).1 offered
        exact links o found choice hchoice unlocked hlinks

/-- What is not lost to the parent agrees with it. -/
theorem agrees_of_kept {link : String} {parent child : Json} {offer : Option Offer}
    (kept : Dependent.losesValue link parent offer child = false) : Agrees link parent child offer := by
  constructor
  · intro empty
    rw [Dependent.losesValue, empty] at kept
    simpa using kept
  · rintro filled o rfl loaded held part hpart
    rw [Dependent.losesValue, filled, held] at kept
    have allowed : Choice.allow (Choice.narrow o.all link parent) child = true := by
      simpa [loaded] using kept
    obtain ⟨choice, offered, equal⟩ := Choice.allow_iff.1 allowed part hpart
    obtain ⟨there, links⟩ := (Choice.mem_narrow_iff filled).1 offered
    exact ⟨choice, there, links, equal⟩

namespace Session

variable {s : Session} {e : Dependency}

structure Family (s : Session) (e : Dependency) (rule : DependencyRule) (parent child : Control) :
    Prop where
  rule : s.config.dependentRules[e.rule]? = some rule
  parent : s.controls.get? e.parent = some parent
  child : s.controls.get? e.child = some child

theorem Family.parentValue {rule : DependencyRule} {parent child : Control}
    (h : s.Family e rule parent child) : e.parentValue s.controls = parent.value := by
  rw [Dependency.parentValue, ControlSet.value?_of_get? h.parent, Option.getD_some]

theorem Family.stands {rule : DependencyRule} {parent child : Control}
    (h : s.Family e rule parent child) : e.Stands s.config s.controls rule :=
  ⟨h.rule, child.value, ControlSet.value?_of_get? h.child⟩

/-- A form follows every dependency among the fields of its tree, and no other. -/
theorem Stocked.mem_dependencies_iff (h : s.Stocked) :
    e ∈ s.dependencies ↔ e ∈ Dependency.ofRules s.config.dependentRules s.tree := by
  rw [h.dependencies]
  exact Dependency.mem_ordered_iff

/-- Every dependency among the fields of the tree has its rule, its parent and its child. -/
theorem Founded.family (h : s.Founded)
    (he : e ∈ Dependency.ofRules s.config.dependentRules s.tree) :
    ∃ rule parent child, s.Family e rule parent child := by
  obtain ⟨rule, parent, child, known, found, there, -, -, hparent, hchild⟩ :=
    Dependency.mem_ofRules_iff.1 he
  obtain ⟨b, -, -, state⟩ := h.control (List.mem_of_find?_eq_some found)
  obtain ⟨b', -, -, state'⟩ := h.control there
  exact ⟨rule, b.state, b'.state, known, hparent ▸ state, hchild ▸ state'⟩

/-- In a settled form no dependency takes a value. -/
theorem Standing.agrees (h : s.Standing) (he : e ∈ s.dependencies) {rule : DependencyRule}
    {parent child : Control} (family : s.Family e rule parent child) :
    Agrees rule.linkProperty parent.value child.value (s.catalog.offer? e.child) := by
  have kept := h.quiet.respects e he
  rw [Refresh.loses_of_some family.rule family.child, family.parentValue] at kept
  exact agrees_of_kept kept

/-- In a form that can be reached, the value of every dependent control agrees with each of the controls
it depends on. -/
theorem children_agree (h : s.Reachable)
    (he : e ∈ Dependency.ofRules s.config.dependentRules s.tree) :
    ∃ rule parent child, s.Family e rule parent child ∧
      Agrees rule.linkProperty parent.value child.value (s.catalog.offer? e.child) := by
  have standing := h.standing
  have followed := h.stocked.mem_dependencies_iff.2 he
  obtain ⟨rule, parent, child, family⟩ := standing.family he
  exact ⟨rule, parent, child, family, standing.agrees followed family⟩

/-- The contested form with a choice for both parents, and that choice taken. -/
def agreed : Session :=
  contested.runAll
    [.receiveChoices 0 "room" (.rows [.obj [("guest", .arr [.str "Ann", .str "Bob"]),
        ("house", .str "red"), ("id", .str "12")]]),
      .setValue "guest" (.str "Ann"), .setValue "room" (.str "12")]

theorem reachable_agreed : agreed.Reachable := reachable_contested.runAll _

/-- A filled control agrees with both of the controls it depends on. -/
theorem children_agree_room :
    agreed.Reachable ∧
      (agreed.controls.value? "room").map Json.isFilled = some true ∧
      ∀ e ∈ [(⟨"house", "room", 0⟩ : Dependency), ⟨"guest", "room", 1⟩],
        e ∈ Dependency.ofRules agreed.config.dependentRules agreed.tree ∧
        ∃ rule parent child, agreed.Family e rule parent child ∧
          Agrees rule.linkProperty parent.value child.value (agreed.catalog.offer? e.child) := by
  have there : ∀ e ∈ [(⟨"house", "room", 0⟩ : Dependency), ⟨"guest", "room", 1⟩],
      e ∈ Dependency.ofRules agreed.config.dependentRules agreed.tree := by decide +kernel
  refine ⟨reachable_agreed, by decide +kernel, fun e he => ?_⟩
  exact ⟨there e he, children_agree reachable_agreed (there e he)⟩

/-- A dependency that is followed after all others of the same child. -/
def IsLast (s : Session) (e : Dependency) : Prop :=
  ∃ before after, s.dependencies = before ++ e :: after ∧ ∀ d ∈ after, d.child ≠ e.child

/-- In a settled form, lock and choices of a control are those that its last dependency asks for. -/
theorem Standing.restricts_of_isLast (h : s.Standing) (last : s.IsLast e) {rule : DependencyRule}
    {parent child : Control} (family : s.Family e rule parent child) :
    child.dependencyLocked = !parent.value.isFilled ∧
      (∀ o, s.catalog.offer? e.child = some o →
        o.available = Choice.narrow o.all rule.linkProperty parent.value) ∧
      Restricts rule.linkProperty parent.value child (s.catalog.offer? e.child) := by
  obtain ⟨before, after, split, others⟩ := last
  obtain ⟨lock, choices⟩ := h.decided split (fun d hd same => others d hd same.symm) family.stands
  rw [family.parentValue] at lock choices
  have locked := lock child family.child
  refine ⟨locked, choices, ?_, ?_⟩
  · intro empty
    have held : child.dependencyLocked = true := by rw [locked, empty, Bool.not_false]
    obtain ⟨b, found, state⟩ := Option.map_eq_some_iff.1 family.child
    obtain ⟨wanted, shows⟩ := h.shows_of_mem (List.mem_of_find?_eq_some found)
    refine ⟨held, ?_, fun o offered => ?_⟩
    · rw [← state, shows.disabled, Control.shouldEnable, state, held]
      simp
    · rw [choices o offered, Choice.narrow_of_empty empty]
  · intro filled o found choice offered
    rw [choices o found] at offered
    exact ((Choice.mem_narrow_iff filled).1 offered).2

/-- The dependency of a control that is followed last restricts it. Any other one does so just if its
parent is filled in wherever the decisive one is, and every choice that the decisive one leaves links to
it as well. -/
theorem restricts_iff_last_restricts (h : s.Reachable)
    (he : e ∈ Dependency.ofRules s.config.dependentRules s.tree) :
    ∃ last ∈ Dependency.ofRules s.config.dependentRules s.tree,
      s.IsLast last ∧ last.child = e.child ∧
      ∃ rule parent lastRule lastParent child,
        s.Family e rule parent child ∧ s.Family last lastRule lastParent child ∧
        Restricts lastRule.linkProperty lastParent.value child (s.catalog.offer? e.child) ∧
        (Restricts rule.linkProperty parent.value child (s.catalog.offer? e.child) ↔
          (lastParent.value.isFilled = true → parent.value.isFilled = true) ∧
            ∀ o, s.catalog.offer? e.child = some o → ∀ choice ∈ o.all,
              lastParent.value.isFilled = true → choice.Links lastRule.linkProperty lastParent.value →
                choice.Links rule.linkProperty parent.value) := by
  have standing := h.standing
  have followed := h.stocked.mem_dependencies_iff.2 he
  obtain ⟨before, last, after, split, same, others⟩ := Dependency.exists_last ⟨e, followed, rfl⟩
  have isLast : s.IsLast last := ⟨before, after, split, same ▸ others⟩
  have there : last ∈ Dependency.ofRules s.config.dependentRules s.tree := by
    rw [← h.stocked.mem_dependencies_iff, split]
    simp
  obtain ⟨rule, parent, child, family⟩ := standing.family he
  obtain ⟨lastRule, lastParent, child', lastFamily⟩ := standing.family there
  obtain rfl : child' = child := by
    have found := lastFamily.child
    rw [same, family.child] at found
    exact (Option.some.inj found).symm
  obtain ⟨locked, choices, restricts⟩ := standing.restricts_of_isLast isLast lastFamily
  rw [same] at choices restricts
  exact ⟨last, there, isLast, same, rule, parent, lastRule, lastParent, child', family, lastFamily,
    restricts, restricts.iff_of_decided locked choices⟩

/-- With both parents filled in, the parent that is not followed last restricts the room as well. -/
theorem restricts_iff_last_restricts_room :
    agreed.Reachable ∧
      (⟨"house", "room", 0⟩ : Dependency) ∈
        Dependency.ofRules agreed.config.dependentRules agreed.tree ∧
      ∃ last ∈ Dependency.ofRules agreed.config.dependentRules agreed.tree,
        agreed.IsLast last ∧ last.child = "room" ∧
        ∃ rule parent lastRule lastParent child,
          agreed.Family ⟨"house", "room", 0⟩ rule parent child ∧
          agreed.Family last lastRule lastParent child ∧
          Restricts lastRule.linkProperty lastParent.value child (agreed.catalog.offer? "room") ∧
          (Restricts rule.linkProperty parent.value child (agreed.catalog.offer? "room") ↔
            (lastParent.value.isFilled = true → parent.value.isFilled = true) ∧
              ∀ o, agreed.catalog.offer? "room" = some o → ∀ choice ∈ o.all,
                lastParent.value.isFilled = true →
                  choice.Links lastRule.linkProperty lastParent.value →
                    choice.Links rule.linkProperty parent.value) := by
  have there : (⟨"house", "room", 0⟩ : Dependency) ∈
      Dependency.ofRules agreed.config.dependentRules agreed.tree := by decide +kernel
  exact ⟨reachable_agreed, there, restricts_iff_last_restricts reachable_agreed there⟩

/-- In the contested form the guest is empty, and yet the room is neither locked nor disabled. -/
theorem contested_room_unlocked :
    contested.Reachable ∧
      (⟨"guest", "room", 1⟩ : Dependency) ∈
        Dependency.ofRules contested.config.dependentRules contested.tree ∧
      ∃ rule parent child, contested.Family ⟨"guest", "room", 1⟩ rule parent child ∧
        parent.value.isFilled = false ∧ child.dependencyLocked = false ∧ child.disabled = false ∧
        ¬Restricts rule.linkProperty parent.value child (contested.catalog.offer? "room") := by
  have there : (⟨"guest", "room", 1⟩ : Dependency) ∈
      Dependency.ofRules contested.config.dependentRules contested.tree := by decide +kernel
  have guest : (contested.controls.get? "guest").map (·.value.isFilled) = some false := by
    decide +kernel
  have room : (contested.controls.get? "room").map (fun c => (c.dependencyLocked, c.disabled)) =
      some (false, false) := by decide +kernel
  obtain ⟨rule, parent, child, family⟩ := reachable_contested.standing.family there
  have empty : parent.value.isFilled = false := by simpa [family.parent] using guest
  obtain ⟨unlocked, enabled⟩ : child.dependencyLocked = false ∧ child.disabled = false := by
    simpa [family.child] using room
  refine ⟨reachable_contested, there, rule, parent, child, family, empty, unlocked, enabled, ?_⟩
  intro restricts
  have locked := (restricts.empty empty).1
  rw [unlocked] at locked
  cases locked

end Session

end Formwork
