import Formwork.Dependency.Basic
import Mathlib.Data.List.Nodup

/-!
# The dependencies of a tree

Which dependencies the rules make among the fields of a tree, and that putting them in an order neither
drops one nor adds one, whether or not they form a cycle. Of several dependencies of one control there
is always one that is followed last.
-/
namespace Formwork.Dependency

variable {edges : List Dependency} {e : Dependency}

theorem mem_ofRules_iff {rules : List DependencyRule} {t : FormTree} :
    e ∈ ofRules rules t ↔ ∃ rule parent child, rules[e.rule]? = some rule ∧
      t.fields.find? (fun f => f.field.dataSource = some rule.parentSource) = some parent ∧
      child ∈ t.fields ∧ child.field.dataSource = some rule.childSource ∧
      child.controlId ≠ parent.controlId ∧ e.parent = parent.controlId ∧
      e.child = child.controlId := by
  simp only [ofRules, List.mem_flatMap, Prod.exists, List.mem_zipIdx_iff_getElem?]
  constructor
  · rintro ⟨rule, index, known, made⟩
    unfold ofRule at made
    split at made
    · cases made
    · rename_i parent found
      obtain ⟨child, chosen, rfl⟩ := List.mem_map.1 made
      obtain ⟨there, fits⟩ := List.mem_filter.1 chosen
      obtain ⟨source, other⟩ := of_decide_eq_true fits
      exact ⟨rule, parent, child, known, found, there, source, other, rfl, rfl⟩
  · rintro ⟨rule, parent, child, known, found, there, source, other, hparent, hchild⟩
    refine ⟨rule, e.rule, known, ?_⟩
    rw [ofRule, found]
    refine List.mem_map.2 ⟨child, List.mem_filter.2 ⟨there, by simp [source, other]⟩, ?_⟩
    rw [← hparent, ← hchild]

/-- Collecting names one after another keeps each of them once. -/
theorem collected (names seen : List String) :
    let all := names.foldl (fun seen n => if n ∈ seen then seen else seen ++ [n]) seen
    (∀ n, n ∈ all ↔ n ∈ seen ∨ n ∈ names) ∧ (seen.Nodup → all.Nodup) := by
  induction names generalizing seen with
  | nil => simp
  | cons first names ih =>
    rw [List.foldl_cons]
    by_cases known : first ∈ seen
    · rw [if_pos known]
      obtain ⟨members, distinct⟩ := ih seen
      refine ⟨fun n => (members n).trans ?_, distinct⟩
      rw [List.mem_cons]
      constructor
      · exact Or.imp_right .inr
      · rintro (old | rfl | new)
        · exact .inl old
        · exact .inl known
        · exact .inr new
    · rw [if_neg known]
      obtain ⟨members, distinct⟩ := ih (seen ++ [first])
      refine ⟨fun n => (members n).trans (by simp [or_assoc]), fun once => distinct ?_⟩
      exact List.nodup_append.2 ⟨once, List.nodup_singleton first,
        fun n hn m hm same => known (List.mem_singleton.1 hm ▸ same ▸ hn)⟩

/-- The nodes are the controls that occur. -/
theorem mem_nodes_iff {n : String} : n ∈ nodes edges ↔ ∃ e ∈ edges, e.parent = n ∨ e.child = n := by
  rw [nodes, (collected _ []).1]
  simp [eq_comm]

/-- No control is among the nodes twice. -/
theorem nodup_nodes : (nodes edges).Nodup := (collected _ []).2 List.nodup_nil

/-- The parent of a dependency is among the controls that occur. -/
theorem parent_mem_nodes (he : e ∈ edges) : e.parent ∈ nodes edges :=
  mem_nodes_iff.2 ⟨e, he, .inl rfl⟩

/-- The parent of every dependency has its place in the order: in an order of parents before children it
stands before its child, and otherwise the order is that of the controls that occur. -/
theorem parent_mem_nodeOrder (he : e ∈ edges) : e.parent ∈ nodeOrder edges := by
  unfold nodeOrder
  split
  · rename_i forward
    have before := forward e he
    have within : (searchOrder edges).idxOf e.child ≤ (searchOrder edges).length :=
      List.idxOf_le_length
    exact List.idxOf_lt_length_iff.1 (by omega)
  · exact parent_mem_nodes he

theorem mem_ordered_iff : e ∈ ordered edges ↔ e ∈ edges := by
  simp only [ordered, List.mem_flatMap, List.mem_reverse, List.mem_filter, decide_eq_true_eq]
  constructor
  · rintro ⟨n, -, he, -⟩
    exact he
  · intro he
    exact ⟨e.parent, parent_mem_nodeOrder he, he, rfl⟩

/-- Of the dependencies of one control there is one that is followed last. -/
theorem exists_last {id : String} (h : ∃ e ∈ edges, e.child = id) :
    ∃ before last after, edges = before ++ last :: after ∧ last.child = id ∧
      ∀ d ∈ after, d.child ≠ id := by
  induction edges with
  | nil => simp at h
  | cons first edges ih =>
    by_cases later : ∃ d ∈ edges, d.child = id
    · obtain ⟨before, last, after, split, same, only⟩ := ih later
      exact ⟨first :: before, last, after, by rw [split, List.cons_append], same, only⟩
    · obtain ⟨e, he, same⟩ := h
      rcases List.mem_cons.1 he with rfl | he
      · exact ⟨[], e, edges, rfl, same, fun d hd same => later ⟨d, hd, same⟩⟩
      · exact absurd ⟨e, he, same⟩ later

end Formwork.Dependency
