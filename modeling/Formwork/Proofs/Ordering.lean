import Formwork.Proofs.Dependents.Searching
import Formwork.Proofs.Settling

/-!
# The order in which dependencies are followed

Putting the dependencies in order drops none and adds none, even where they form a cycle. What the rules ask
for can be counted: a dependency is there once for each field that it is due for. If there is no cycle, every
dependency of a control is followed before any on which the control has a say.
-/
namespace Formwork.Dependency

variable {edges : List Dependency}

/-- The dependencies on controls in a list without repetitions, control by control. -/
theorem flatMap_children_perm {order : List String} (once : order.Nodup) :
    (order.flatMap fun n => (edges.filter (·.parent = n)).reverse).Perm
      (edges.filter (·.parent ∈ order)) := by
  induction order with
  | nil => simp
  | cons n order ih =>
    obtain ⟨unused, once⟩ := List.nodup_cons.1 once
    have first : (edges.filter (·.parent ∈ n :: order)).filter (·.parent = n) =
        edges.filter (·.parent = n) := by
      rw [List.filter_filter]
      refine List.filter_congr fun e _ => ?_
      by_cases here : e.parent = n <;> simp [here]
    have others : (edges.filter (·.parent ∈ n :: order)).filter (fun e => !decide (e.parent = n)) =
        edges.filter (·.parent ∈ order) := by
      rw [List.filter_filter]
      refine List.filter_congr fun e _ => ?_
      by_cases here : e.parent = n <;> simp [here, unused]
    have split := List.filter_append_perm (·.parent = n) (edges.filter (·.parent ∈ n :: order))
    rw [first, others] at split
    rw [List.flatMap_cons]
    exact ((List.reverse_perm _).append (ih once)).trans split

/-- Putting dependencies in order neither drops one nor adds one. -/
theorem ordered_perm : (ordered edges).Perm edges := by
  have all : edges.filter (·.parent ∈ nodeOrder edges) = edges :=
    List.filter_eq_self.2 fun _ he => decide_eq_true (parent_mem_nodeOrder he)
  have perm : (ordered edges).Perm (edges.filter (·.parent ∈ nodeOrder edges)) :=
    flatMap_children_perm nodup_nodeOrder
  rwa [all] at perm

/-- What comes later has no say in the parent of what comes earlier. -/
theorem pairwise_of_backed {order : List String} (backed : Backed edges order) :
    (order.flatMap fun n => (edges.filter (·.parent = n)).reverse).Pairwise
      fun d e => e.child ≠ d.parent := by
  induction order with
  | nil => exact .nil
  | cons n later ih =>
    obtain ⟨unused, children, rest⟩ := backed
    have block : ∀ e ∈ (edges.filter (·.parent = n)).reverse, e ∈ edges ∧ e.parent = n := by
      intro e he
      simpa using he
    rw [List.flatMap_cons, List.pairwise_append]
    refine ⟨List.pairwise_of_forall_mem_list fun d hd e he same => ?_, ih rest, fun d hd e he same => ?_⟩
    · obtain ⟨there, parent⟩ := block e he
      exact unused (children n ⟨e, there, parent, same.trans (block d hd).2⟩)
    · obtain ⟨m, hm, he⟩ := List.mem_flatMap.1 he
      obtain ⟨there, parent⟩ : e ∈ edges ∧ e.parent = m := by simpa using he
      have child := rest.child_mem hm ⟨e, there, parent, rfl⟩
      exact unused ((block d hd).2 ▸ same ▸ child)

/-- Without a cycle, every dependency of a control is followed before any on which the control has a say. -/
theorem lt_of_ordered (acyclic : Acyclic edges) {i j : Nat} {d e : Dependency}
    (hd : (ordered edges)[i]? = some d) (he : (ordered edges)[j]? = some e) (same : d.child = e.parent) :
    i < j := by
  obtain ⟨hi, rfl⟩ := List.getElem?_eq_some_iff.1 hd
  obtain ⟨hj, rfl⟩ := List.getElem?_eq_some_iff.1 he
  have pairs := List.pairwise_iff_getElem.1 (pairwise_of_backed (backed_nodeOrder acyclic))
  rcases Nat.lt_trichotomy i j with less | rfl | more
  · exact less
  · have there := mem_ordered_iff.1 (List.getElem_mem hi)
    exact absurd (.single ⟨_, there, same.symm, rfl⟩) (acyclic _)
  · exact absurd same (pairs j i hj hi more)

/-- The rule makes the field the child of the dependency: the field is bound to the source of the children, and
the first field that is bound to the source of the parent drives it, unless it is under the same identifier. -/
def DueBy (rule : DependencyRule) (fields : List PlacedField) (e : Dependency) (child : PlacedField) : Prop :=
  ∃ parent ∈ fields.find? fun f => f.field.dataSource = some rule.parentSource,
    child.field.dataSource = some rule.childSource ∧ child.controlId ≠ parent.controlId ∧
      e.parent = parent.controlId ∧ e.child = child.controlId

instance (rule : DependencyRule) (fields : List PlacedField) (e : Dependency) (child : PlacedField) :
    Decidable (DueBy rule fields e child) :=
  inferInstanceAs (Decidable (∃ parent ∈ fields.find? fun f => f.field.dataSource = some rule.parentSource,
    child.field.dataSource = some rule.childSource ∧ child.controlId ≠ parent.controlId ∧
      e.parent = parent.controlId ∧ e.child = child.controlId))

def Due (rules : List DependencyRule) (fields : List PlacedField) (e : Dependency) (child : PlacedField) :
    Prop :=
  ∃ rule ∈ rules[e.rule]?, DueBy rule fields e child

instance (rules : List DependencyRule) (fields : List PlacedField) (e : Dependency) (child : PlacedField) :
    Decidable (Due rules fields e child) :=
  inferInstanceAs (Decidable (∃ rule ∈ rules[e.rule]?, DueBy rule fields e child))

/-- A rule makes a dependency once for each field that it is due for. -/
theorem count_ofRule (fields : List PlacedField) (rule : DependencyRule) (index : Nat) (e : Dependency) :
    (ofRule fields rule index).count e =
      if e.rule = index then fields.countP fun child => DueBy rule fields e child else 0 := by
  unfold ofRule
  cases found : fields.find? fun f => f.field.dataSource = some rule.parentSource with
  | none => simp [DueBy, found]
  | some parent =>
    rw [List.count_eq_countP, List.countP_map, List.countP_filter]
    by_cases here : e.rule = index
    · rw [if_pos here]
      refine List.countP_congr fun child _ => ?_
      obtain ⟨p, c, r⟩ := e
      simp only [Function.comp_apply, Bool.and_eq_true, beq_iff_eq, decide_eq_true_eq, DueBy, found,
        Option.mem_def, Option.some.injEq, exists_eq_left', Dependency.mk.injEq]
      constructor
      · rintro ⟨⟨rfl, rfl, -⟩, source, other⟩
        exact ⟨source, other, rfl, rfl⟩
      · rintro ⟨source, other, rfl, rfl⟩
        exact ⟨⟨rfl, rfl, here.symm⟩, source, other⟩
    · rw [if_neg here, List.countP_eq_zero]
      intro child _ same
      simp only [Function.comp_apply, Bool.and_eq_true, beq_iff_eq] at same
      exact here (same.1 ▸ rfl)

theorem count_zipIdx (rules : List DependencyRule) (fields : List PlacedField) (start : Nat)
    (e : Dependency) :
    ((rules.zipIdx start).flatMap fun r => ofRule fields r.1 r.2).count e =
      if start ≤ e.rule then
        fields.countP fun child => ∃ rule ∈ rules[e.rule - start]?, DueBy rule fields e child
      else 0 := by
  induction rules generalizing start with
  | nil => simp
  | cons rule rules ih =>
    rw [List.zipIdx_cons, List.flatMap_cons, List.count_append, ih, count_ofRule]
    rcases Nat.lt_trichotomy e.rule start with before | here | after
    · rw [if_neg (by omega), if_neg (by omega), if_neg (by omega)]
    · rw [if_pos here, if_neg (by omega), if_pos (by omega), here, Nat.sub_self]
      simp
    · have next : e.rule - start = e.rule - (start + 1) + 1 := by omega
      rw [if_neg (by omega), if_pos (by omega), if_pos (by omega), next, Nat.zero_add]
      simp

/-- The rules make a dependency once for each field that it is due for. -/
theorem count_ofRules (rules : List DependencyRule) (t : FormTree) (e : Dependency) :
    (ofRules rules t).count e = t.fields.countP fun child => Due rules t.fields e child := by
  rw [ofRules, count_zipIdx, if_pos (Nat.zero_le _)]
  rfl

/-- The dependencies in order are those that the rules ask for, each once for every field that it is due for, and
so once at all where the identifiers are distinct. If there is no cycle, all dependencies of a control come before
all on which the control has a say. -/
theorem ordered_ofRules (rules : List DependencyRule) (t : FormTree) :
    (∀ e, (ordered (ofRules rules t)).count e = t.fields.countP fun child => Due rules t.fields e child) ∧
      ((t.fields.map (·.controlId)).Nodup → (ordered (ofRules rules t)).Nodup) ∧
      (Acyclic (ofRules rules t) → ∀ (i j : Nat) (d e : Dependency), (ordered (ofRules rules t))[i]? = some d →
        (ordered (ofRules rules t))[j]? = some e → d.child = e.parent → i < j) := by
  have counted : ∀ e, (ordered (ofRules rules t)).count e =
      t.fields.countP fun child => Due rules t.fields e child := by
    intro e
    rw [ordered_perm.count_eq, count_ofRules]
  refine ⟨counted, fun distinct => ?_, fun acyclic i j d e => lt_of_ordered acyclic⟩
  rw [List.nodup_iff_count_le_one]
  intro e
  have once := List.nodup_iff_count_le_one.1 distinct e.child
  rw [List.count_eq_countP, List.countP_map] at once
  rw [counted]
  refine Nat.le_trans (List.countP_mono_left fun child _ due => ?_) once
  obtain ⟨-, -, -, -, -, -, -, same⟩ := of_decide_eq_true due
  exact beq_iff_eq.2 same.symm

end Formwork.Dependency

namespace Formwork.Session

/-- A city in a region in a country, which are asked for and have their rules in the opposite order. -/
def places : Session :=
  .start "" { dependentRules := [⟨"city", "region", "regionId"⟩, ⟨"region", "country", "countryId"⟩] }
    ⟨none, [⟨"Place", none, none, none,
      [choiceOf "city" .null, choiceOf "region" .null, choiceOf "country" .null], [], [],
      ⟨.always, none, .null⟩, true, none, []⟩], [], []⟩

theorem acyclic_places :
    Dependency.Acyclic (Dependency.ofRules places.config.dependentRules places.tree) :=
  Dependency.forward_searchOrder_iff.1 (by decide +kernel)

/-- The region is looked after before the city. -/
theorem ordered_ofRules_places :
    let edges := Dependency.ofRules places.config.dependentRules places.tree
    (places.tree.fields.map (·.controlId)).Nodup ∧ Dependency.Acyclic edges ∧
      edges = [⟨"region", "city", 0⟩, ⟨"country", "region", 1⟩] ∧
      (Dependency.ordered edges).Nodup ∧
      ∀ i j : Nat, (Dependency.ordered edges)[i]? = some ⟨"country", "region", 1⟩ →
        (Dependency.ordered edges)[j]? = some ⟨"region", "city", 0⟩ → i < j := by
  intro edges
  have distinct : (places.tree.fields.map (·.controlId)).Nodup := by decide +kernel
  obtain ⟨-, once, before⟩ := Dependency.ordered_ofRules places.config.dependentRules places.tree
  exact ⟨distinct, acyclic_places, by decide +kernel, once distinct,
    fun i j region city => before acyclic_places i j _ _ region city rfl⟩

end Formwork.Session
