import Formwork.Document
import Formwork.Error
import Formwork.Session.Basic
import Formwork.Template.Reading

/-!
# Templates, documents and steps

Changes of what a session is about. Each of them makes the form anew. Where they reach for a service
of the host, the service is an argument, and if it fails nothing happens.
-/
namespace Formwork

structure DocumentKey where
  caseId : String
  step : String
deriving DecidableEq, Repr

namespace Session

/-- Goes over to another template. Counts of repeated groups, choices and selections are forgotten. -/
def loadTemplate (template : Template) (s : Session) : Session :=
  rebuildFromStored
    { s with template, registry := .empty, catalog := s.catalog.renew, selections := [] }

def fetchTemplate (fetch : String → Except FormError String) (id : String) (s : Session) :
    Except FormError Session :=
  (fetch id).map fun text => s.loadTemplate (.ofTextLenient text)

/-- Goes over to another document. Counts of repeated groups and selections are forgotten. -/
def loadDocument (raw : Option String) (s : Session) : Session :=
  let stored := Document.parse raw
  rebuildFromStored
    { s with stored, hasStored := !stored.isEmpty, registry := .empty, selections := [] }

def fetchDocument (fetch : DocumentKey → Except FormError (Option String)) (key : DocumentKey)
    (s : Session) : Except FormError Session :=
  (fetch key).map fun raw => s.loadDocument raw

/-- The values of the controls that hold data. -/
def currentValues (s : Session) : Fields :=
  Table.ofPairs <| s.tree.fields.filterMap fun p =>
    if p.field.kind.isDecorative then none
    else (s.controls.value? p.controlId).map fun v => (p.controlId, v)

/-- The stored document with the current values in it. -/
def mergedDocument (s : Session) : Fields := Document.merge s.stored s.currentValues

/-- Goes over to another step. What was entered stays in the document of the session. -/
def setStep (step : Option String) (s : Session) : Session :=
  rebuildFromStored
    { s with stored := s.mergedDocument, step, catalog := s.catalog.renew, selections := [] }

end Session

end Formwork
