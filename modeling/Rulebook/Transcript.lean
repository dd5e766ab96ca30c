import Rulebook.Interpreter

/-!
# Transcripts

A run of statements from a fresh world, reported step by step: what a statement gave or how it
failed, what was traced and noticed during it, and the state of the parser it was about. A fault
ends its statement and not the run.
-/

namespace Rulebook

/-- What there is before the first statement. -/
inductive Setup
  | bare
  /-- A parser `p` with `capture` installed. -/
  | parser
  /-- A facade `f` with `capture` installed, and its parser `p`. -/
  | facade
deriving Repr, DecidableEq, Inhabited

/-- The state of a parser. -/
structure ParserState where
  /-- The line, the column and the offset that its location gives. -/
  place : List Datum
  /-- The labels on the stack, the root first. -/
  labels : List Datum
  /-- How many children the root has. -/
  rootChildren : Nat
deriving Repr, Inhabited

/-- What is reported about a statement. -/
structure StepReport where
  outcome : Except Fault Datum
  traces : List Datum
  lines : List String
  state : Option ParserState

/-- A statement and the variable of the host that its report is about. -/
structure ScriptStep where
  statement : Stmt
  object : String

namespace Run

/-- Sets up the world. -/
def prepare (kernel : Kernel) (setup : Setup) : Run Unit := do
  match setup with
  | .bare => return ()
  | .parser =>
    let id ← newParser .parser .null
    let _ ← install kernel (.host id) .null
    setVariable "p" (.host id)
  | .facade =>
    let id ← newFacade .facade .null
    let _ ← install kernel (.host id) .null
    setVariable "f" (.host id)
    setVariable "p" (← attributeOf (.host id) "parser")

/-- Pictures of attributes of a value. -/
def attributePictures (value : Value) (names : List String) : Run (List Datum) :=
  names.mapM fun name => do picture (← attributeOf value name)

/-- The state of a parser. -/
def parserState (kernel : Kernel) (parser : Value) : Run ParserState := do
  let location ← kernel.send parser "location" []
  let place ← attributePictures location ["line", "column", "offset"]
  let opened ← valuesIn (← attributeOf parser "stack")
  let labels ← opened.mapM fun node => do picture (← attributeOf node "type")
  let children ← attributeOf (← attributeOf parser "ast") "nodes"
  return ⟨place, labels, ← lengthOf children⟩

/-- The state of a parser in a variable, or of the parser that its host owns. -/
def stateOf (kernel : Kernel) (object : String) : Run ParserState := do
  let target ← getVariable object
  match ← observe (attributeOf target "parser") with
  | .ok nested => parserState kernel nested
  | .error _ => parserState kernel target

/-- What a statement gives: the result of an action, and null for every other statement. -/
def result (kernel : Kernel) (statement : Stmt) : Run Value :=
  match statement with
  | .act action target => Script.actInto kernel action target
  | other => do
    let _ ← Script.run kernel other
    return .null

/-- Runs a statement and gives a picture of its result. -/
def resultPicture (kernel : Kernel) (statement : Stmt) : Run Datum := do
  picture (← result kernel statement)

end Run

/-- Runs a step and reports on it. -/
def ScriptStep.run (kernel : Kernel) (step : ScriptStep) (world : World) : StepReport × World :=
  let (outcome, after) :=
    (Run.resultPicture kernel step.statement).outcome { world with notices := #[], traces := #[] }
  let (state, final) := (Run.stateOf kernel step.object).outcome after
  (⟨outcome, after.traces.toList, after.notices.toList.map Notice.line, state.toOption⟩, final)

/-- Runs steps in order from a world. -/
def runSteps (kernel : Kernel) : List ScriptStep → World → List StepReport
  | [], _ => []
  | step :: rest, world =>
    let (report, after) := step.run kernel world
    report :: runSteps kernel rest after

/-- How deeply calls can be nested in a transcript. -/
def transcriptDepth : Nat := 1000

/-- How often a loop of a transcript may go round. -/
def transcriptRounds : Nat := 1000000000

/-- The reports on a run of steps after a setup. -/
def transcript (setup : Setup) (steps : List ScriptStep) : List StepReport :=
  let kernel := Kernel.ofDepth transcriptRounds transcriptDepth
  let (_, world) := (Run.prepare kernel setup).outcome .start
  runSteps kernel steps world

end Rulebook
