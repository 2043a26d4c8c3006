import Formwork.Session.Operation

/-!
# What a run goes through

A run of operations goes through sessions, one before each operation and one at the end. What the operations
of the run keep, each in the session in which it is done, holds of all of them.
-/
namespace Formwork.Session

/-- The sessions that a run goes through, each with what is done to it. -/
def trail (s : Session) : List Operation → List (Session × Operation)
  | [] => []
  | operation :: rest => (s, operation) :: (s.run operation).trail rest

def states (s : Session) (operations : List Operation) : List Session :=
  (s.trail operations).map (·.1) ++ [s.runAll operations]

variable {s : Session}

theorem states_cons (s : Session) (operation : Operation) (rest : List Operation) :
    s.states (operation :: rest) = s :: (s.run operation).states rest := rfl

theorem runAll_mem_states (s : Session) (operations : List Operation) :
    s.runAll operations ∈ s.states operations :=
  List.mem_append_right _ List.mem_cons_self

theorem fst_mem_states {operations : List Operation} {x : Session × Operation}
    (h : x ∈ s.trail operations) : x.1 ∈ s.states operations :=
  List.mem_append_left _ (List.mem_map_of_mem h)

theorem self_mem_states (s : Session) (operations : List Operation) : s ∈ s.states operations := by
  cases operations with
  | nil => exact List.mem_cons_self
  | cons operation rest => exact List.mem_cons_self

/-- An operation leads from one session of the run to another. -/
theorem run_mem_states {operations : List Operation} {x : Session × Operation}
    (h : x ∈ s.trail operations) : x.1.run x.2 ∈ s.states operations := by
  induction operations generalizing s with
  | nil => exact absurd h List.not_mem_nil
  | cons operation rest ih =>
    rw [states_cons]
    rcases List.mem_cons.1 h with rfl | h
    · exact List.mem_cons_of_mem _ (self_mem_states _ rest)
    · exact List.mem_cons_of_mem _ (ih h)

theorem snd_mem_of_mem_trail {operations : List Operation} {x : Session × Operation}
    (h : x ∈ s.trail operations) : x.2 ∈ operations := by
  induction operations generalizing s with
  | nil => exact absurd h List.not_mem_nil
  | cons operation rest ih =>
    rcases List.mem_cons.1 h with rfl | h
    · exact List.mem_cons_self
    · exact List.mem_cons_of_mem _ (ih h)

/-- What every operation of a run keeps holds of every session on the way. -/
theorem forall_states {P : Session → Prop} {operations : List Operation} (start : P s)
    (each : ∀ x ∈ s.trail operations, P x.1 → P (x.1.run x.2)) : ∀ t ∈ s.states operations, P t := by
  induction operations generalizing s with
  | nil =>
    intro t ht
    obtain rfl := List.mem_singleton.1 ht
    exact start
  | cons operation rest ih =>
    have next := ih (each _ List.mem_cons_self start) fun x hx => each x (List.mem_cons_of_mem _ hx)
    rw [states_cons]
    exact List.forall_mem_cons.2 ⟨start, next⟩

theorem runAll_append (s : Session) (operations more : List Operation) :
    s.runAll (operations ++ more) = (s.runAll operations).runAll more :=
  List.foldl_append

/-- A longer run goes through all that a shorter one goes through. -/
theorem states_subset_append (s : Session) (operations more : List Operation) :
    s.states operations ⊆ s.states (operations ++ more) := by
  induction operations generalizing s with
  | nil =>
    intro t ht
    obtain rfl := List.mem_singleton.1 ht
    exact self_mem_states _ _
  | cons operation rest ih =>
    rw [List.cons_append, states_cons, states_cons]
    exact List.cons_subset_cons s (ih (s.run operation))

end Formwork.Session
