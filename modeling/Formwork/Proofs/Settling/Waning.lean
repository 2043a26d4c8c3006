import Formwork.Proofs.Settling.Readings
import Mathlib.Data.List.Forall2

/-!
# Values that wane

Settling never fills in a control. All that it does to values is to empty some that are filled in, so
whether it has changed a value can be told from the number of controls that are filled in.
-/
namespace Formwork

theorem Json.isFilled_emptied (v : Json) : v.emptied.isFilled = false := by
  cases v <;> rfl

/-- The value stays as it is, or it was filled in and is emptied. -/
def Json.Wanes (v w : Json) : Prop := w = v ∨ v.isFilled = true ∧ w = v.emptied

namespace BoundControl

def Wanes (b c : BoundControl) : Prop :=
  c.id = b.id ∧ c.rawKey = b.rawKey ∧ b.state.value.Wanes c.state.value

theorem Wanes.refl (b : BoundControl) : b.Wanes b := ⟨rfl, rfl, .inl rfl⟩

theorem Wanes.reading_eq_or {b c : BoundControl} (h : b.Wanes c) :
    c.reading = b.reading ∨ b.state.value.isFilled = true ∧ c.state.value.isFilled = false := by
  obtain ⟨id, raw, same | ⟨filled, emptied⟩⟩ := h
  · left
    rw [reading, reading, id, raw, same]
  · right
    rw [emptied]
    exact ⟨filled, Json.isFilled_emptied _⟩

end BoundControl

namespace ControlSet

def Wanes (s t : ControlSet) : Prop := List.Forall₂ BoundControl.Wanes s t

theorem Wanes.refl (s : ControlSet) : s.Wanes s := List.forall₂_same.mpr fun b _ => .refl b

section

variable {R : BoundControl → BoundControl → Prop} {s t u : ControlSet}

/-- Where two sets of controls are related one by one, what is told alike of related controls is told alike of
the sets. -/
theorem map_of_forall₂ {α : Type} {f : BoundControl → α} (h : List.Forall₂ R s t)
    (same : ∀ b c, R b c → f c = f b) : t.map f = s.map f := by
  induction h with
  | nil => rfl
  | cons first _ ih => rw [List.map_cons, List.map_cons, same _ _ first, ih]

theorem forall₂_trans (trans : ∀ a b c, R a b → R b c → R a c) (h : List.Forall₂ R s t)
    (h' : List.Forall₂ R t u) : List.Forall₂ R s u := by
  induction h generalizing u with
  | nil => exact h'
  | cons first _ ih =>
    cases h' with
    | cons first' rest' => exact .cons (trans _ _ _ first first') (ih rest')

end

theorem Wanes.names {s t : ControlSet} (h : s.Wanes t) :
    t.map BoundControl.names = s.map BoundControl.names :=
  map_of_forall₂ h fun _ _ wanes => Prod.ext wanes.1 wanes.2.1

theorem Wanes.ids {s t : ControlSet} (h : s.Wanes t) : t.ids = s.ids := ids_of_names h.names

/-- Where two sets of controls are related one by one under the same identifiers, what is found in the
first is related to what is found in the second. -/
theorem exists_of_forall₂ {R : BoundControl → BoundControl → Prop} {s t : ControlSet}
    (h : List.Forall₂ R s t) (ids : ∀ b c, R b c → c.id = b.id) {id : String} {x : Control}
    (found : s.get? id = some x) :
    ∃ b ∈ s, ∃ c ∈ t, R b c ∧ b.id = id ∧ b.state = x ∧ t.get? id = some c.state := by
  induction h with
  | nil => cases found
  | @cons b c s t first rest ih =>
    rw [get?_cons] at found
    by_cases here : b.id = id
    · rw [if_pos here] at found
      refine ⟨b, List.mem_cons_self, c, List.mem_cons_self, first, here, Option.some.inj found, ?_⟩
      rw [get?_cons, if_pos ((ids b c first).trans here)]
    · rw [if_neg here] at found
      obtain ⟨b', hb', c', hc', related, id', state, found'⟩ := ih found
      refine ⟨b', List.mem_cons_of_mem _ hb', c', List.mem_cons_of_mem _ hc', related, id', state, ?_⟩
      rw [get?_cons, if_neg (by rwa [ids b c first]), found']

/-- A value wanes where the controls do. -/
theorem Wanes.exists_value {s t : ControlSet} (h : s.Wanes t) {id : String} {v : Json}
    (found : s.value? id = some v) : ∃ w, t.value? id = some w ∧ v.Wanes w := by
  obtain ⟨x, there, rfl⟩ := Option.map_eq_some_iff.1 found
  obtain ⟨b, -, c, -, wanes, -, rfl, found'⟩ := exists_of_forall₂ h (fun _ _ h => h.1) there
  exact ⟨c.state.value, value?_of_get? found', wanes.2.2⟩

def filledCount (s : ControlSet) : Nat := s.countP fun b => b.state.value.isFilled

theorem filledCount_le_length (s : ControlSet) : s.filledCount ≤ s.length := List.countP_le_length

theorem filledCount_congr {s t : ControlSet} (h : s.readings = t.readings) :
    s.filledCount = t.filledCount := by
  have counted : ∀ u : ControlSet, u.filledCount = u.readings.countP fun r => r.2.2.isFilled := by
    intro u
    rw [readings, List.countP_map]
    rfl
  rw [counted, counted, h]

/-- Waning leaves all readings as they are or makes fewer controls filled in. -/
theorem Wanes.readings_eq_or_lt {s t : ControlSet} (h : s.Wanes t) :
    t.readings = s.readings ∨ t.filledCount < s.filledCount := by
  induction h with
  | nil => exact .inl rfl
  | @cons b c s t first rest ih =>
    have le : filledCount t ≤ filledCount s := by
      rcases ih with same | less
      · exact Nat.le_of_eq (filledCount_congr same)
      · exact Nat.le_of_lt less
    rcases first.reading_eq_or with same | ⟨filled, emptied⟩
    · rcases ih with rest_same | less
      · left
        simp only [readings, List.map_cons, same] at rest_same ⊢
        rw [rest_same]
      · right
        have value : c.state.value = b.state.value := congrArg (·.2.2) same
        simp only [filledCount, List.countP_cons, value] at less ⊢
        omega
    · right
      simp only [filledCount, List.countP_cons, filled, emptied] at le ⊢
      simp
      omega

theorem Wanes.filledCount_le {s t : ControlSet} (h : s.Wanes t) : t.filledCount ≤ s.filledCount := by
  rcases h.readings_eq_or_lt with same | less
  · exact Nat.le_of_eq (filledCount_congr same)
  · exact Nat.le_of_lt less

/-- What has waned does not come back: if nothing is lost in the end, nothing was lost on the way. -/
theorem Wanes.readings_eq_of_between {s t u : ControlSet} (h : s.Wanes t) (h' : t.Wanes u)
    (same : u.readings = s.readings) : t.readings = s.readings := by
  rcases h.readings_eq_or_lt with equal | less
  · exact equal
  · have := h'.filledCount_le
    have := filledCount_congr same
    omega

end ControlSet

end Formwork
