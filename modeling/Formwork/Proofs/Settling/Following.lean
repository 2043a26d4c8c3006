import Formwork.Dependency.Refresh
import Formwork.Proofs.Settling.Waning
import Formwork.Table.Lemmas

/-!
# What following a dependency does

Following a dependency writes three things about the child: its lock, the choices on offer to it, and
perhaps the loss of its value. Lock and choices are overwritten outright with what the value of the
parent asks for, whatever they were before. Whether the value is lost depends on values and on the
choices there are, never on the lock or on the choices on offer.
-/
namespace Formwork

/-- The control without what a round decides anew: whether it is in view and enabled. -/
def Control.unshown (c : Control) : Control := { c with visible := false, disabled := false }

def Control.hold (locked : Bool) (c : Control) : Control := { c with dependencyLocked := locked }

def Offer.narrowTo (link : String) (parent : Json) (o : Offer) : Offer :=
  { o with available := Choice.narrow o.all link parent }

theorem Offer.narrowTo_narrowTo (link link' : String) (parent parent' : Json) (o : Offer) :
    (o.narrowTo link parent).narrowTo link' parent' = o.narrowTo link' parent' :=
  rfl

/-- What an offer has in stock: every choice there is, and whether there is nothing to wait for. -/
def Offer.stock (o : Offer) : List Choice × Bool := (o.all, o.loaded)

namespace Dependent

/-- Whether the value of the child is lost to that of its parent. -/
def losesValue (link : String) (parent : Json) (offer : Option Offer) (v : Json) : Bool :=
  v.isFilled && (!parent.isFilled ||
    offer.any fun o => o.loaded && !Choice.allow (Choice.narrow o.all link parent) v)

theorem losesValue_congr {offer offer' : Option Offer}
    (h : offer.map Offer.stock = offer'.map Offer.stock) (link : String) (parent v : Json) :
    losesValue link parent offer v = losesValue link parent offer' v := by
  cases offer with
  | none =>
    cases offer' with
    | none => rfl
    | some _ => cases h
  | some o =>
    cases offer' with
    | none => cases h
    | some o' =>
      simp only [Option.map_some, Option.some.injEq, Offer.stock, Prod.mk.injEq] at h
      simp only [losesValue, Option.any_some, h.1, h.2]

theorem unlock_unshown (d : Dependent) : d.unlock.control.unshown = d.control.unshown.hold false := by
  unfold unlock
  split
  · rfl
  · rename_i free
    simp only [Bool.not_eq_true] at free
    simp only [Control.unshown, Control.hold, free]

theorem unlock_value (d : Dependent) : d.unlock.control.value = d.control.value := by
  unfold unlock
  split <;> rfl

theorem unlock_offer (d : Dependent) : d.unlock.offer = d.offer := by
  unfold unlock
  split <;> rfl

theorem unlock_unchanged {d : Dependent} (h : d.unlock.changed = false) : d.changed = false := by
  unfold unlock at h
  split at h
  · cases h
  · exact h

variable (link : String) (parent : Json) (d : Dependent)

theorem follow_unshown :
    (d.follow link parent).control.unshown =
      if losesValue link parent d.offer d.control.value
      then (d.control.unshown.hold !parent.isFilled).clear
      else d.control.unshown.hold !parent.isFilled := by
  cases filled : parent.isFilled
  · cases value : d.control.value.isFilled <;>
      simp [follow, filled, lock, losesValue, value, Control.unshown, Control.hold, Control.clear,
        Control.set]
  · have unlocked := unlock_unshown d
    cases offer : d.offer with
    | none => simp [follow, filled, narrow, unlock_offer, offer, unlocked, losesValue]
    | some o =>
      simp only [follow, filled, narrow, unlock_offer, offer, unlock_value, losesValue, if_true,
        Option.any_some, Bool.not_true, Bool.false_or]
      rw [← unlocked]
      cases o.loaded <;> cases d.control.value.isFilled <;>
        cases Choice.allow (Choice.narrow o.all link parent) d.control.value <;>
        simp [Control.unshown, Control.clear, Control.set]

theorem follow_value :
    (d.follow link parent).control.value =
      if losesValue link parent d.offer d.control.value then d.control.value.emptied
      else d.control.value := by
  have written := congrArg Control.value (follow_unshown link parent d)
  rw [apply_ite Control.value] at written
  exact written

theorem follow_offer :
    (d.follow link parent).offer = d.offer.map (Offer.narrowTo link parent) := by
  cases filled : parent.isFilled
  · cases offer : d.offer <;> simp [follow, filled, lock, offer, Offer.narrowTo, Choice.narrow]
  · cases offer : d.offer <;>
      simp [follow, filled, narrow, unlock_offer, offer, Offer.narrowTo]

/-- A step that reports no change has taken no value. -/
theorem follow_unchanged (h : (d.follow link parent).changed = false) :
    d.changed = false ∧ losesValue link parent d.offer d.control.value = false := by
  cases filled : parent.isFilled
  · simp only [follow, filled, lock, Bool.false_eq_true, if_false, Bool.or_eq_false_iff] at h
    obtain ⟨⟨⟨⟨quiet, -⟩, -⟩, empty⟩, -⟩ := h
    exact ⟨quiet, by simp [losesValue, empty]⟩
  · cases offer : d.offer with
    | none =>
      simp only [follow, filled, narrow, unlock_offer, offer, if_true] at h
      exact ⟨unlock_unchanged h, by simp [losesValue, filled]⟩
    | some o =>
      simp only [follow, filled, narrow, unlock_offer, unlock_value, offer, if_true,
        Bool.or_eq_false_iff] at h
      obtain ⟨⟨quiet, -⟩, kept⟩ := h
      refine ⟨unlock_unchanged quiet, ?_⟩
      simp only [losesValue, filled, Option.any_some, Bool.not_true, Bool.false_or]
      rw [← kept]
      cases o.loaded <;> cases d.control.value.isFilled <;> simp

end Dependent

end Formwork
