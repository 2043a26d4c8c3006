import Formwork.Proofs.Dependents.Edges
import Mathlib.Logic.Relation

/-!
# The search that orders controls

Depth first search leaves a control behind when everything that depends on it has been left behind. The
controls that have been seen and not yet been left behind are those on the way to the current one, so that a
control which depends on the current one is among them only if there is a cycle. Without a cycle, therefore,
every control stands before the ones that depend on it.
-/
namespace Formwork.Dependency

open Relation

def Drives (edges : List Dependency) (parent child : String) : Prop :=
  ∃ e ∈ edges, e.parent = parent ∧ e.child = child

/-- No control depends on itself, not even by way of others. -/
def Acyclic (edges : List Dependency) : Prop := ∀ n, ¬TransGen (Drives edges) n n

variable {edges : List Dependency} {node : String}

theorem mem_children_iff {child : String} : child ∈ children edges node ↔ Drives edges node child := by
  simp only [children, List.mem_map, List.mem_filter, decide_eq_true_eq, Drives, and_assoc]

theorem Drives.child_mem_nodes {child : String} (h : Drives edges node child) : child ∈ nodes edges := by
  obtain ⟨e, he, -, rfl⟩ := h
  exact mem_nodes_iff.2 ⟨e, he, .inr rfl⟩

/-- Each of the nodes stands once, and before all that depend on it directly. -/
def Backed (edges : List Dependency) : List String → Prop
  | [] => True
  | node :: later =>
    node ∉ later ∧ (∀ child, Drives edges node child → child ∈ later) ∧ Backed edges later

namespace Backed

variable {order : List String}

theorem nodup (h : Backed edges order) : order.Nodup := by
  induction order with
  | nil => exact List.nodup_nil
  | cons node later ih => exact List.nodup_cons.2 ⟨h.1, ih h.2.2⟩

theorem child_mem (h : Backed edges order) {child : String} (parent : node ∈ order)
    (drives : Drives edges node child) : child ∈ order := by
  induction order with
  | nil => exact absurd parent List.not_mem_nil
  | cons first later ih =>
    rcases List.mem_cons.1 parent with rfl | parent
    · exact List.mem_cons_of_mem _ (h.2.1 child drives)
    · exact List.mem_cons_of_mem _ (ih h.2.2 parent)

theorem idxOf_lt (h : Backed edges order) {child : String} (parent : node ∈ order)
    (drives : Drives edges node child) : order.idxOf node < order.idxOf child := by
  induction order with
  | nil => exact absurd parent List.not_mem_nil
  | cons first later ih =>
    obtain ⟨unused, backed, h⟩ := h
    rcases List.mem_cons.1 parent with rfl | parent
    · have other : child ≠ node := fun same => unused (same ▸ backed child drives)
      rw [List.idxOf_cons_self, List.idxOf_cons_ne _ other.symm]
      omega
    · have other : ∀ n ∈ later, first ≠ n := fun n hn same => unused (same ▸ hn)
      have less := ih h parent
      rw [List.idxOf_cons_ne _ (other node parent),
        List.idxOf_cons_ne _ (other child (h.child_mem parent drives))]
      omega

end Backed

namespace Search

/-- The node has been seen but not left behind. -/
def Open (s : Search) (n : String) : Prop := n ∈ s.seen ∧ n ∉ s.finished

structure Sound (edges : List Dependency) (s : Search) : Prop where
  backed : Backed edges s.finished
  seen : s.finished ⊆ s.seen

structure Extends (s t : Search) : Prop where
  seen : s.seen ⊆ t.seen
  finished : s.finished ⊆ t.finished
  pending : ∀ n, t.Open n ↔ s.Open n

theorem Extends.refl (s : Search) : s.Extends s :=
  ⟨List.Subset.refl _, List.Subset.refl _, fun _ => Iff.rfl⟩

theorem Extends.trans {s t u : Search} (h : s.Extends t) (h' : t.Extends u) : s.Extends u :=
  ⟨List.Subset.trans h.seen h'.seen, List.Subset.trans h.finished h'.finished,
    fun n => (h'.pending n).trans (h.pending n)⟩

theorem countP_unseen_le {s t : Search} (h : s.seen ⊆ t.seen) (l : List String) :
    l.countP (fun n => n ∉ t.seen) ≤ l.countP fun n => n ∉ s.seen := by
  refine List.countP_mono_left fun n _ fresh => ?_
  simp only [decide_eq_true_eq] at fresh ⊢
  exact fun known => fresh (h known)

/-- How many nodes have not been seen. -/
def unseen (edges : List Dependency) (s : Search) : Nat := (nodes edges).countP fun n => n ∉ s.seen

theorem unseen_le {s t : Search} (h : s.seen ⊆ t.seen) : t.unseen edges ≤ s.unseen edges :=
  countP_unseen_le h (nodes edges)

/-- Seeing a node leaves fewer. -/
theorem unseen_lt {s t : Search} (h : s.seen ⊆ t.seen) (there : node ∈ nodes edges)
    (fresh : node ∉ s.seen) (known : node ∈ t.seen) : t.unseen edges < s.unseen edges := by
  obtain ⟨before, after, split⟩ := List.append_of_mem there
  have left := countP_unseen_le h before
  have right := countP_unseen_le h after
  simp only [unseen, split, List.countP_append, List.countP_cons, fresh, known, not_true_eq_false,
    not_false_eq_true, decide_true, decide_false, if_true, Bool.false_eq_true, if_false]
  omega

def see (node : String) (s : Search) : Search := { s with seen := node :: s.seen }

def leave (node : String) (s : Search) : Search := { s with finished := node :: s.finished }

theorem open_see {s : Search} (fresh : node ∉ s.finished) (n : String) :
    (s.see node).Open n ↔ n = node ∨ s.Open n := by
  simp only [Open, see, List.mem_cons]
  constructor
  · rintro ⟨rfl | known, left⟩
    · exact .inl rfl
    · exact .inr ⟨known, left⟩
  · rintro (rfl | ⟨known, left⟩)
    · exact ⟨.inl rfl, fresh⟩
    · exact ⟨.inr known, left⟩

/-- A node may be left behind after all that depend on it. -/
theorem Sound.leave {s : Search} (h : s.Sound edges) (pending : s.Open node)
    (left : children edges node ⊆ s.finished) : (s.leave node).Sound edges where
  backed := ⟨pending.2, fun _ drives => left (mem_children_iff.2 drives), h.backed⟩
  seen := List.cons_subset.2 ⟨pending.1, h.seen⟩

/-- A node that is seen and left behind is not open in the end. -/
theorem Extends.leave {s t : Search} (h : (s.see node).Extends t) (fresh : node ∉ s.seen)
    (seen : s.finished ⊆ s.seen) : s.Extends (t.leave node) where
  seen := List.Subset.trans (List.subset_cons_self _ _) h.seen
  finished := List.Subset.trans h.finished (List.subset_cons_self _ _)
  pending := by
    intro n
    have others := (h.pending n).trans (open_see (fun left => fresh (seen left)) n)
    simp only [Open, Search.leave, List.mem_cons, not_or] at others ⊢
    constructor
    · rintro ⟨known, other, left⟩
      exact (others.1 ⟨known, left⟩).resolve_left other
    · intro pending
      obtain ⟨known, left⟩ := others.2 (.inr pending)
      exact ⟨known, fun same => fresh (same ▸ pending.1), left⟩

end Search

open Search

theorem visit_of_seen {fuel : Nat} {s : Search} (known : node ∈ s.seen) : visit edges fuel s node = s := by
  cases fuel with
  | zero => rfl
  | succ fuel => rw [visit, if_pos known]

theorem visit_of_fresh {fuel : Nat} {s : Search} (fresh : node ∉ s.seen) :
    visit edges (fuel + 1) s node =
      ((children edges node).foldl (visit edges fuel) (s.see node)).leave node := by
  rw [visit, if_neg fresh]
  rfl

/-- Searching on from a node with this much fuel leaves it behind, if all open nodes lead to it. -/
def Finishes (edges : List Dependency) (fuel : Nat) : Prop :=
  ∀ (s : Search) (n : String), s.Sound edges → s.unseen edges ≤ fuel → n ∈ nodes edges →
    (∀ k, s.Open k → TransGen (Drives edges) k n) →
      (visit edges fuel s n).Sound edges ∧ s.Extends (visit edges fuel s n) ∧
        n ∈ (visit edges fuel s n).finished

/-- Searching on from one node after another leaves all of them behind. -/
theorem Finishes.foldl {fuel : Nat} (h : Finishes edges fuel) {l : List String} {s : Search}
    (sound : s.Sound edges) (enough : s.unseen edges ≤ fuel) (there : ∀ n ∈ l, n ∈ nodes edges)
    (leads : ∀ n ∈ l, ∀ k, s.Open k → TransGen (Drives edges) k n) :
    (l.foldl (visit edges fuel) s).Sound edges ∧ s.Extends (l.foldl (visit edges fuel) s) ∧
      l ⊆ (l.foldl (visit edges fuel) s).finished := by
  induction l generalizing s with
  | nil => exact ⟨sound, .refl s, List.nil_subset _⟩
  | cons n l ih =>
    obtain ⟨here, there⟩ := List.forall_mem_cons.1 there
    obtain ⟨way, leads⟩ := List.forall_mem_cons.1 leads
    obtain ⟨sound', first, left⟩ := h s n sound enough here way
    have enough' := Nat.le_trans (unseen_le first.seen) enough
    obtain ⟨sound'', rest, lefts⟩ := ih sound' enough' there
      fun m hm k hk => leads m hm k ((first.pending k).1 hk)
    refine ⟨sound'', first.trans rest, ?_⟩
    intro m hm
    rcases List.mem_cons.1 hm with rfl | hm
    · exact rest.finished left
    · exact lefts hm

variable (acyclic : Acyclic edges)
include acyclic

/-- There is nothing to be done for a node that has been seen, if all open nodes lead to it: it has been left
behind. -/
theorem finishes_of_seen {fuel : Nat} {s : Search} (sound : s.Sound edges)
    (leads : ∀ k, s.Open k → TransGen (Drives edges) k node) (known : node ∈ s.seen) :
    (visit edges fuel s node).Sound edges ∧ s.Extends (visit edges fuel s node) ∧
      node ∈ (visit edges fuel s node).finished := by
  rw [visit_of_seen known]
  refine ⟨sound, .refl s, ?_⟩
  by_contra pending
  exact acyclic node (leads node ⟨known, pending⟩)

/-- As much fuel as there are unseen nodes is enough. While a node is visited, it and those that lead to it are
open, and all of them lead to its children. -/
theorem finishes (fuel : Nat) : Finishes edges fuel := by
  induction fuel with
  | zero =>
    intro s n sound enough there leads
    by_cases known : n ∈ s.seen
    · exact finishes_of_seen acyclic sound leads known
    · have fewer := unseen_lt (t := s.see n) (List.subset_cons_self _ _) there known List.mem_cons_self
      omega
  | succ fuel ih =>
    intro s n sound enough there leads
    by_cases known : n ∈ s.seen
    · exact finishes_of_seen acyclic sound leads known
    · have fewer := unseen_lt (t := s.see n) (List.subset_cons_self _ _) there known List.mem_cons_self
      have seen : (s.see n).Sound edges := ⟨sound.backed, List.Subset.trans sound.seen (List.subset_cons_self _ _)⟩
      have opened := open_see fun left => known (sound.seen left)
      have ways : ∀ c ∈ children edges n, ∀ k, (s.see n).Open k → TransGen (Drives edges) k c := by
        intro c hc k hk
        have drives := mem_children_iff.1 hc
        rcases (opened k).1 hk with rfl | hk
        · exact .single drives
        · exact (leads k hk).tail drives
      obtain ⟨below, extended, left⟩ := ih.foldl seen (by omega)
        (fun c hc => (mem_children_iff.1 hc).child_mem_nodes) ways
      have pending := (extended.pending n).2 ((opened n).2 (.inl rfl))
      rw [visit_of_fresh known]
      exact ⟨below.leave pending left, extended.leave known sound.seen, List.mem_cons_self⟩

/-- The search leaves every node behind, each before the ones that depend on it. -/
theorem backed_searchOrder : Backed edges (searchOrder edges) ∧ nodes edges ⊆ searchOrder edges := by
  obtain ⟨sound, -, left⟩ := (finishes acyclic (nodes edges).length).foldl (l := nodes edges)
    (s := ⟨[], []⟩) ⟨trivial, List.nil_subset _⟩ List.countP_le_length (fun _ hn => hn)
    fun _ _ _ hk => absurd hk.1 List.not_mem_nil
  exact ⟨sound.backed, left⟩

omit acyclic in
/-- There is no cycle just if the search puts parents before their children. -/
theorem forward_searchOrder_iff : Forward (searchOrder edges) edges ↔ Acyclic edges := by
  constructor
  · intro forward n cycle
    have later : ∀ {a b}, TransGen (Drives edges) a b →
        (searchOrder edges).idxOf a < (searchOrder edges).idxOf b := by
      intro a b way
      induction way with
      | single drives =>
        obtain ⟨e, he, rfl, rfl⟩ := drives
        exact forward e he
      | tail _ drives ih =>
        obtain ⟨e, he, rfl, rfl⟩ := drives
        exact Nat.lt_trans ih (forward e he)
    exact Nat.lt_irrefl _ (later cycle)
  · intro acyclic e he
    obtain ⟨backed, all⟩ := backed_searchOrder acyclic
    exact backed.idxOf_lt (all (parent_mem_nodes he)) ⟨e, he, rfl, rfl⟩

/-- Without a cycle, every node stands before the ones that depend on it. -/
theorem backed_nodeOrder : Backed edges (nodeOrder edges) := by
  rw [nodeOrder, if_pos (forward_searchOrder_iff.2 acyclic)]
  exact (backed_searchOrder acyclic).1

omit acyclic in
/-- No control has two places in the order, be there a cycle or not. -/
theorem nodup_nodeOrder : (nodeOrder edges).Nodup := by
  unfold nodeOrder
  split
  · rename_i forward
    exact (backed_searchOrder (forward_searchOrder_iff.1 forward)).1.nodup
  · exact nodup_nodes

end Formwork.Dependency
