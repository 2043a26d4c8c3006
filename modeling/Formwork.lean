import Formwork.Control.Lemmas
import Formwork.Proofs.Settling.Following
import Formwork.Repeat.Slot.Lemmas
import Formwork.Session.Operation
import Formwork.Session.View
import Formwork.Table.Lemmas
import Formwork.Proofs.Settling.Marks
import Formwork.Proofs.Settling.Refreshing
import Formwork.Proofs.Settling.Presenting
import Formwork.Proofs.Settling.FixedPoint
import Formwork.Proofs.Layout.Naming
import Formwork.Proofs.Layout.Growth
import Formwork.Proofs.Session.Aspects
import Formwork.Proofs.Dependents.Edges
import Formwork.Proofs.Session.Offers
import Formwork.Proofs.Session.Casting
import Formwork.Proofs.Session.Standing
import Formwork.Proofs.Settling
import Formwork.Proofs.Saving
import Formwork.Proofs.Removal.Slots
import Formwork.Proofs.Removal.Shifting
import Formwork.Proofs.Layout.Records
import Formwork.Proofs.Removal.Trees
import Formwork.Proofs.Removal.Moving
import Formwork.Proofs.Removal.Alongside
import Formwork.Proofs.Removal.Contracting
import Formwork.Proofs.Removal.Contraction
import Formwork.Proofs.Session.Sorted
import Formwork.Proofs.Removal
import Formwork.Proofs.Dependents.Deciding
import Formwork.Proofs.Dependents
import Formwork.Proofs.Choice.Respelling
import Formwork.Proofs.Answers.Failing
import Formwork.Proofs.Answers.Taking
import Formwork.Proofs.Visibility.Likeness
import Formwork.Proofs.Answers.Bounding
import Formwork.Proofs.Answers.Determined
import Formwork.Proofs.Answers
import Formwork.Proofs.Answers.Subsiding
import Formwork.Proofs.Template.Loose
import Formwork.Proofs.Template.Agreement
import Formwork.Proofs.Template.Bounds
import Formwork.Proofs.Binary64
import Formwork.Proofs.Json
import Formwork.Proofs.Template.RoundTrip
import Formwork.Proofs.Layout.Numbers
import Formwork.Proofs.Layout.Thinning
import Formwork.Proofs.Layout.Parts
import Formwork.Proofs.Stepwise
import Formwork.Proofs.Layout.Telling
import Formwork.Proofs.Layout.Instances
import Formwork.Proofs.Session.Listed
import Formwork.Proofs.Settling.Echoing
import Formwork.Proofs.Reloading
import Formwork.Proofs.Session.Supply
import Formwork.Proofs.Coherence
import Formwork.Proofs.Session.Trails
import Formwork.Proofs.Carrying
import Formwork.Proofs.Chains
import Formwork.Proofs.Session.Spelling
import Formwork.Proofs.Session.Recalling
import Formwork.Proofs.Rebuilding
import Formwork.Proofs.Layout.Enclosed
import Formwork.Proofs.Session.Trimming
import Formwork.Proofs.Addition.Trees
import Formwork.Proofs.Addition
import Formwork.Proofs.Session.Exchanges
import Formwork.Proofs.Requests
import Formwork.Session.InPlace
import Formwork.Proofs.Refusals
import Formwork.Proofs.Reports
import Formwork.Proofs.Reconciling
import Formwork.Proofs.Layout.Scopes
import Formwork.Proofs.Filling
import Formwork.Proofs.Labels
import Formwork.Proofs.Visibility
import Formwork.Proofs.Dependents.Searching
import Formwork.Proofs.Ordering
import Formwork.Proofs.References
import Formwork.Proofs.Binary64.Shortest
import Formwork.Proofs.Binary64.Printing
import Formwork.Proofs.Comparing
import Formwork.Proofs.Rebinding
import Formwork.Proofs.Template.Rereading
import Formwork.Proofs.Normalizing
import Formwork.Proofs.Layout.Expansion
import Formwork.Proofs.Expansion
import Formwork.Proofs.Scanning
import Formwork.Proofs.Renumbering
