import Formwork.Choice.Basic
import Formwork.Control.Basic
import Formwork.Tree.Basic

/-!
# Offers of choices

Which choices each control has. Choices listed in a template are at hand; those of a source are asked
for from the host, which answers whenever it likes. Requests carry the generation of the catalog, and
a new generation begins whenever the answers still to come would be of no use, so that late ones are
recognised. Rows are kept within a generation and serve controls that are laid out anew.
-/
namespace Formwork

structure Offer where
  /-- The source of the choices, unless the template lists them. -/
  source : Option String
  /-- Every choice there is. -/
  all : List Choice
  /-- The choices on offer for the value of the control that this one depends on. -/
  available : List Choice
  /-- Whether there is nothing to wait for. -/
  loaded : Bool
  /-- How many choices the template expects at most. -/
  maxOptions : Option Nat

/-- What a host is asked to fetch. -/
structure ChoiceRequest where
  generation : Nat
  source : String
  moduleHints : List String
deriving DecidableEq, Repr

inductive Response where
  /-- The rows of the source. -/
  | rows (rows : List Json)
  /-- The rows could not be fetched. -/
  | failed

def ChoiceRequest.toJson (r : ChoiceRequest) : Json :=
  Json.object [("generation", Json.ofNat r.generation), ("source", .str r.source),
    ("moduleHints", Json.ofTexts r.moduleHints)]

namespace Offer

def ofChoices (maxOptions : Option Nat) (choices : List Choice) : Offer :=
  ⟨none, choices, choices, true, maxOptions⟩

/-- The offer of a source that has not answered. -/
def awaiting (source : String) (maxOptions : Option Nat) : Offer :=
  ⟨some source, [], [], false, maxOptions⟩

/-- The choices for rows. Just yes and no where more than two choices are expected counts as none. -/
def choicesOf (config : Config) (source : String) (maxOptions : Option Nat) (rows : List Json) :
    List Choice :=
  let choices := rows.map (Choice.ofRow config source)
  if maxOptions.any (2 < ·) && Choice.isYesNoPair choices then [] else choices

/-- The offer with the rows of its source. -/
def fill (config : Config) (source : String) (rows : List Json) (o : Offer) : Offer :=
  let choices := choicesOf config source o.maxOptions rows
  { o with all := choices, available := choices, loaded := true }

/-- The value in the spelling of the choice that it stands for, item by item for a list. As long as
there are no choices it stays as it is. -/
def exactValue (o : Offer) (v : Json) : Json :=
  if !o.loaded || o.all.isEmpty then v
  else
    match v with
    | .null => .null
    | .arr items => .arr (items.map (Choice.exact o.all))
    | v => Choice.exact o.all v

def toJson (o : Offer) : Json :=
  Json.object [("source", Json.ofOption .str o.source), ("all", .arr (o.all.map Choice.toJson)),
    ("available", .arr (o.available.map Choice.toJson)), ("loaded", .bool o.loaded)]

end Offer

structure Catalog where
  generation : Nat
  /-- The rows of the sources that have answered. -/
  cache : Table (List Json)
  /-- The sources asked for that have not answered. -/
  inFlight : List String
  /-- The offers by control. -/
  offers : Table Offer

/-- The offer for a control of the field when it is laid out, if it takes choices at all. Choices
listed in the template come before a source. -/
def Field.offer? (config : Config) (cache : Table (List Json)) (f : Field) : Option Offer :=
  if f.kind.takesChoices then
    let entries := f.options.getD []
    let source? := f.dataSource.filter fun s => !Text.isBlankText s
    some <|
      match entries, source? with
      | [], some source =>
        match Table.get? source cache with
        | some rows => (Offer.awaiting source f.maxOptions).fill config source rows
        | none => .awaiting source f.maxOptions
      | entries, _ => .ofChoices f.maxOptions (entries.map (Choice.ofEntry config))
  else none

namespace Catalog

def empty : Catalog := ⟨0, [], [], []⟩

/-- Begins a new generation, without rows, requests and offers. -/
def renew (c : Catalog) : Catalog := ⟨c.generation + 1, [], [], []⟩

/-- Makes an offer to every control of the tree that takes choices. -/
def bind (config : Config) (t : FormTree) (c : Catalog) : Catalog :=
  { c with
    offers := Table.ofPairs <| t.fields.filterMap fun p =>
      (p.field.offer? config c.cache).map fun o => (p.controlId, o) }

def offer? (id : String) (c : Catalog) : Option Offer := Table.get? id c.offers

/-- The source that an offer waits for, unless it is known or asked for. -/
def awaited? (c : Catalog) (o : Offer) : Option String :=
  o.source.filter fun source =>
    !o.loaded && !Table.has source c.cache && !c.inFlight.contains source

def ask (moduleHints : List String) (c : Catalog) : List ChoiceRequest × Catalog :=
  let sources := c.offers.foldl (fun asked e =>
    match c.awaited? e.2 with
    | some source => if source ∈ asked then asked else asked ++ [source]
    | none => asked) []
  (sources.map fun source => ⟨c.generation, source, moduleHints⟩,
    { c with inFlight := c.inFlight ++ sources })

/-- Takes the answer of a source. Rows are kept; where they could not be fetched, the source counts as
empty for now and can be asked for again. -/
def take (config : Config) (source : String) (response : Response) (c : Catalog) : Catalog :=
  let rows := match response with
    | .rows rows => rows
    | .failed => []
  { c with
    cache := match response with
      | .rows rows => Table.insert source rows c.cache
      | .failed => c.cache
    inFlight := c.inFlight.filter (· ≠ source)
    offers := c.offers.mapValues fun o =>
      if o.source = some source then o.fill config source rows else o }

/-- Takes the answer of a source if it belongs to this generation. -/
def receive? (config : Config) (generation : Nat) (source : String) (response : Response)
    (c : Catalog) : Option Catalog :=
  if generation = c.generation then some (c.take config source response) else none

def reconciled (c : Catalog) (b : BoundControl) : BoundControl :=
  match c.offer? b.id with
  | none => b
  | some o =>
    let v := o.exactValue b.state.value
    if v == b.state.value then b else { b with state := b.state.set v }

def reconcile (c : Catalog) (controls : ControlSet) : ControlSet := controls.map c.reconciled

def respelled (c : Catalog) (controls : ControlSet) : List String :=
  c.offers.filterMap fun e =>
    match controls.value? e.1 with
    | some v => if e.2.exactValue v == v then none else some e.1
    | none => none

end Catalog

end Formwork
