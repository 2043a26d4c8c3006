import Formwork.Proofs.Session.Standing

/-!
# Settled forms

The main result about settling: it ends in a fixed point of the round, whatever the template, the
configuration and the values are, and no form that can be reached is ever seen in another state.
-/
namespace Formwork.Session

/-- A further round changes nothing after settling, and nothing in a form that can be reached. The
dependencies may be any; in particular, what `round` reports need not be that nothing has changed. -/
theorem round_of_settled :
    (∀ s : Session, s.Bound → s.settle.round.1 = s.settle) ∧
      ∀ s : Session, s.Reachable → s.round.1 = s :=
  ⟨fun _ bound => bound.round_settle, fun _ reachable => reachable.standing.fixed⟩

def choiceOf (source : String) (value : Json) : Field where
  id := source
  kind := .select
  name := source
  required := false
  dataSource := some source
  options := none
  conditions := []
  visibility := ⟨.always, none, .null⟩
  lookup := none
  defaultValue := value
  isEnabled := true
  order := none
  role := none
  maxOptions := none
  extra := []

/-- A form with a child that a filled and an empty parent unlock and lock in every round. -/
def contested : Session :=
  .start "" { dependentRules := [⟨"room", "house", "house"⟩, ⟨"room", "guest", "guest"⟩] }
    ⟨none, [⟨"Stay", none, none, none,
      [choiceOf "house" (.str "red"), choiceOf "guest" .null, choiceOf "room" .null], [], [],
      ⟨.always, none, .null⟩, true, none, []⟩], [], []⟩

theorem reachable_contested : contested.Reachable := .start ..

/-- The round reports a change for ever, and still nothing changes. -/
theorem round_of_contested :
    contested.Bound ∧ contested.settle.round.1 = contested.settle ∧ contested.Reachable ∧
      contested.round.1 = contested ∧ contested.round.2 = true :=
  ⟨reachable_contested.standing.bound, round_of_settled.1 _ reachable_contested.standing.bound,
    reachable_contested, round_of_settled.2 _ reachable_contested, by decide +kernel⟩

end Formwork.Session
