import ArgBinding.Bind
import ArgBinding.Binding.Notation

/-! Placing an order, a command with a required instrument and side, an optional quantity and tags,
and any number of fills with their prices. The order is written out line by line up to the first
value that cannot be read.
-/

namespace ArgBinding.Order

open ArgBinding.Text

/-- The sides of an order. -/
def side : Enumeration :=
  { name := "Side", names := [("BUY", "BUY"), ("SELL", "SELL")], names_nodup := by decide }

/-- The parameters of an order, before they are checked. -/
def drafts : List Draft :=
  [
    { name := some "instrument", presence := .required },
    { name := some "side", choices := .kind (.enumeration side), presence := .required },
    { name := some "quantity", presence := .optional (some "1") },
    { name := some "tags", allowMultiple := true, presence := .optional none }
  ]

/-- The parameters of a fill, before they are checked. -/
def fillDrafts : List Draft :=
  [
    { name := some "fill", presence := .required },
    { name := some "price", presence := .optional none }
  ]

/-- A declaration from its draft. -/
def declared (draft : Draft) : Except SchemaError Entry :=
  draft.declare.result.map fun param => .declared (.simple param)

/-- The declarations of an order. -/
def entries : Except SchemaError (List Entry) := do
  let params ← drafts.mapM declared
  let fill ← fillDrafts.mapM declared
  match fill with
  | [] => .ok params
  | identity :: members =>
      let group ← Group.declare identity members
      .ok (params ++ [.declared (.repeating group)])

/-- The arguments of the order that is placed when none are given. -/
def sample : List String :=
  ["EURUSD", "side: buy", "tags: fast, test", "fill: 1", "price: 1.1", "fill: 2", "price: 1.2"]

/-- The line with the instrument and the side. -/
def headLine (bound : Bound) : Except ReadError String := do
  let instrument ← (bound.read (some "instrument")).value
  let member ← (bound.read (some "side")).member? side
  .ok (shownName instrument ++ " " ++ shownName (member.map fun name => side.name ++ "." ++ name))

/-- The line with the quantity. -/
def quantityLine (bound : Bound) : Except ReadError String := do
  let quantity ← (bound.read (some "quantity")).integer
  .ok ("quantity " ++ toString quantity)

/-- The line with the tags. -/
def tagsLine (bound : Bound) : Except ReadError String := do
  let tags ← (bound.read (some "tags")).values
  .ok ("tags " ++ valuesSpelled tags)

/-- The line with one fill. -/
def fillLine (fill : Repetition) : Except ReadError String := do
  let amount ← (fill.read (some "fill")).value
  let price ← (fill.read (some "price")).decimal
  .ok ("fill " ++ shownName amount ++ " " ++ price.toText)

/-- The line with the arguments that would place the instrument and the fills again. -/
def copyLine (bound : Bound) : Except ReadError String := do
  let copied ← bound.copy [some "instrument", some "fill"]
  .ok (valuesSpelled copied)

/-- The lines of an order, each of which may fail to be read. -/
def lines (bound : Bound) : List (Except ReadError String) :=
  let fills :=
    match bound.repetitions (some "fill") with
    | .error e => [.error e]
    | .ok fills => fills.map fillLine
  [headLine bound, quantityLine bound, tagsLine bound] ++ fills ++ [copyLine bound]

/-- The lines up to the first that fails, and its error. -/
def written : List (Except ReadError String) → List String × Option ReadError
  | [] => ([], none)
  | .error e :: _ => ([], some e)
  | .ok line :: rest =>
      let (following, error) := written rest
      (line :: following, error)

/-- What placing an order writes: the lines of the order and the log of binding, up to an error that
is not answered.
-/
structure Transcript where
  output : List String
  log : List Record
  error : Option Error

/-- Places the order with some arguments. A request for the help is answered by it. -/
def place (arguments : List String) : Transcript :=
  match entries with
  | .error cause => { output := [], log := [], error := some (.schema cause) }
  | .ok entries =>
      let given := if arguments.isEmpty then sample else arguments
      let report := bind entries id (given.map some)
      match report.result with
      | .error (.usage entries) =>
          { output := [usageText entries], log := report.log, error := none }
      | .error error => { output := [], log := report.log, error := some error }
      | .ok bound =>
          let (output, error) := written (lines bound)
          { output := output, log := report.log, error := error.map .reading }

/-- The name under which the log of binding is written. -/
def logName : String := "dsl_params.parser"

/-- Lines with their ends. -/
def joinLines (lines : List String) : String :=
  String.join (lines.map (· ++ "\n"))

/-- The text of the order. -/
def Transcript.outputText (transcript : Transcript) : String :=
  joinLines transcript.output

/-- The text of the log. -/
def Transcript.logText (transcript : Transcript) : String :=
  joinLines (transcript.log.map fun record => "DEBUG:" ++ logName ++ ":" ++ record.message)

end ArgBinding.Order
