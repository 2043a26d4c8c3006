import Formwork.Session.Editing
import Formwork.Session.Saving

/-!
# Runs of a session

Everything that can be done to a session, as data, and the states that a session can come to. Services
of the host stand in an operation as functions, so that a run may be answered in any way. An operation
that is refused leaves the session as it is.
-/
namespace Formwork

inductive Operation where
  | passTime (now : String)
  | setOperator (operator : String)
  | loadTemplate (template : Template)
  | fetchTemplate (fetch : String → Except FormError String) (id : String)
  | loadDocument (raw : Option String)
  | fetchDocument (fetch : DocumentKey → Except FormError (Option String)) (key : DocumentKey)
  | setStep (step : Option String)
  | setValue (id : String) (value : Json)
  | touch (id : String)
  | addInstance (key : String)
  | removeInstance (key : String) (index : Nat)
  | askForChoices
  | receiveChoices (generation : Nat) (source : String) (response : Response)
  | resolveChoices (fetch : String → List String → Response)
  | select (id : String) (selected : Json)
  | deselect (id : String)
  | commitSaved (document : Fields)
  | save (store : DocumentKey → Fields → String → Except FormError Unit) (key : DocumentKey)

namespace Session

/-- The session after something that may be refused. -/
def orUnchanged (s : Session) : Except FormError Session → Session
  | .ok next => next
  | .error _ => s

def run (s : Session) : Operation → Session
  | .passTime now => s.atTime now
  | .setOperator operator => s.withOperator operator
  | .loadTemplate template => s.loadTemplate template
  | .fetchTemplate fetch id => s.orUnchanged (s.fetchTemplate fetch id)
  | .loadDocument raw => s.loadDocument raw
  | .fetchDocument fetch key => s.orUnchanged (s.fetchDocument fetch key)
  | .setStep step => s.setStep step
  | .setValue id value => s.orUnchanged ((s.setValue id value).map (·.2))
  | .touch id => s.orUnchanged (s.touch id)
  | .addInstance key => (s.addInstance? key).getD s
  | .removeInstance key index => (s.removeInstance? key index).getD s
  | .askForChoices => s.askForChoices.2
  | .receiveChoices generation source response => (s.receiveChoices generation source response).2
  | .resolveChoices fetch => (s.resolveChoices fetch).2
  | .select id selected => s.orUnchanged ((s.select id selected).map (·.2))
  | .deselect id => s.orUnchanged ((s.deselect id).map (·.2))
  | .commitSaved document => s.commitSaved document
  | .save store key => s.orUnchanged ((s.save store key).map (·.2))

def runAll (s : Session) (operations : List Operation) : Session := operations.foldl run s

/-- The states that a session can come to. -/
inductive Reachable : Session → Prop where
  | start (now : String) (config : Config) (template : Template) :
    Reachable (Session.start now config template)
  | run {s : Session} (h : Reachable s) (operation : Operation) : Reachable (s.run operation)

theorem Reachable.runAll {s : Session} (h : Reachable s) (operations : List Operation) :
    Reachable (s.runAll operations) := by
  induction operations generalizing s with
  | nil => exact h
  | cons operation rest ih => exact ih (h.run operation)

end Session

end Formwork
