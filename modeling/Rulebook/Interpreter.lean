import Rulebook.Function
import Rulebook.Picture

/-!
# The interpreter

Scripts run on the world one statement after another. A callback has a frame of variables of its
own; names that begin with a capital are seen everywhere. Every call uses up one level of depth, and
calls that are nested too deeply are a fault like others. A loop goes round as often as the kernel
allows, so a run always ends; a run that was cut off says so, and cannot be caught.
-/

namespace Rulebook

namespace Run

/-- Whether a variable is seen everywhere. -/
def isGlobal (name : String) : Bool := name.toList.head?.any Text.isUppercase

/-- The value of a variable. -/
def getVariable (name : String) : Run Value := do
  let world ← get
  match (if isGlobal name then world.globals else world.frame).get? name with
  | some value => return value
  | none => fail (.unbound name)

/-- Sets a variable. -/
def setVariable (name : String) (value : Value) : Run Unit :=
  modify fun world =>
    if isGlobal name then { world with globals := world.globals.insert name value }
    else { world with frame := world.frame.insert name value }

/-- Notes a datum for whoever follows the run. -/
def note (datum : Datum) : Run Unit :=
  modify fun world => { world with traces := world.traces.push datum }

/-- Runs with a frame of its own and goes back to the present one afterwards. -/
def inFrame {α : Type} (frame : Table String Value) (run : Run α) : Run α := do
  let outer := (← get).frame
  modify fun world => { world with frame }
  let outcome ← observe run
  modify fun world => { world with frame := outer }
  match outcome with
  | .ok result => return result
  | .error fault => fail fault

end Run

namespace Script

/-- The value of an expression. -/
def evaluate (term : Term) : Run Value :=
  match term with
  | .datum value => Run.valueOf value
  | .var name => Run.getVariable name
  | .bytes value => return .bytes value
  | .pattern dialect source binary flags => do
    return .pattern (← Run.compile dialect source binary (.ofLetters flags.toList))
  | .callback name body => do return .callback (← Run.fresh) name body

/-- The values of expressions in order. -/
def evaluateAll : List Term → Run (List Value)
  | [] => return []
  | term :: rest => do
    let value ← evaluate term
    return value :: (← evaluateAll rest)

/-- The values of named expressions in order. -/
def evaluateNamed : List (String × Term) → Run (List (String × Value))
  | [] => return []
  | (name, term) :: rest => do
    let value ← evaluate term
    return (name, value) :: (← evaluateNamed rest)

/-- Whether a condition holds. -/
def holds : Cond → Run Bool
  | .not condition => do return !(← holds condition)
  | .present term => do
    match ← evaluate term with
    | .null => return false
    | _ => return true
  | .equal first second => do
    let one ← evaluate first
    Run.equal one (← evaluate second)

/-- The fields that are read as a list of pairs. -/
def pairFields : List String := ["rules", "regex"]

/-- A list of a name and a value. -/
def pairOf (pair : Value × Value) : Run Value := Run.newList #[pair.1, pair.2]

/-- Reads an attribute; a table of rules or patterns as a list of its entries. -/
def readField (object : Value) (field : String) : Run Value := do
  let value ← Run.attributeOf object field
  if field ∈ pairFields then
    Run.newList (← (← Run.pairsIn value).mapM pairOf).toArray
  else return value

/-- Removes a rule from the table of an object and gives it. -/
def dropRule (kernel : Kernel) (object : Value) (label : Datum) : Run Value := do
  Run.takeEntry kernel (← Run.attributeOf object "rules") (← Run.valueOf label)

/-- Carries out an action and gives its result. -/
def act (kernel : Kernel) (action : Action) : Run Value :=
  match action with
  | .call function arguments named => do
    let values ← evaluateAll arguments
    let args : Args := ⟨values, ← evaluateNamed named⟩
    match Function.table.lookup function with
    | some function => function.invoke kernel args
    | none => Run.fail (.unbound function)
  | .send object method arguments named => do
    let values ← evaluateAll arguments
    let args : Args := ⟨values, ← evaluateNamed named⟩
    kernel.invoke (.method (← Run.getVariable object) method) args
  | .read object field => do readField (← Run.getVariable object) field
  | .write object field term => do
    let target ← Run.getVariable object
    Run.setAttribute target field (← evaluate term)
    return .null
  | .drop object label => do dropRule kernel (← Run.getVariable object) label

/-- Carries out an action and stores its result where it is wanted. -/
def actInto (kernel : Kernel) (action : Action) (target : Option String) : Run Value := do
  let result ← act kernel action
  match target with
  | some name => Run.setVariable name result
  | none => pure ()
  return result

/-- How a statement ends. -/
inductive Flow
  | onward
  /-- The innermost loop is left. -/
  | left
  /-- The callback ends with a result. -/
  | gave (result : Value)
deriving Inhabited

/-- Repeats a body until it is left, at most `fuel` times. -/
def repeatBody (body : Run Flow) : Nat → Run Flow
  | 0 => Run.fail .outOfFuel
  | fuel + 1 => do
    match ← body with
    | .onward => repeatBody body fuel
    | .left => return .onward
    | .gave result => return .gave result

mutual

/-- Runs statements in order, as far as they go onward. -/
def runAll (kernel : Kernel) : List Stmt → Run Flow
  | [] => return .onward
  | statement :: rest => do
    match ← run kernel statement with
    | .onward => runAll kernel rest
    | flow => return flow

/-- Runs a statement. -/
def run (kernel : Kernel) : Stmt → Run Flow
  | .give result => do return .gave (← evaluate result)
  | .leave => return .left
  | .trace term => do
    Run.note (← Run.picture (← evaluate term))
    return .onward
  | .raise kind text => Run.fail (.raised kind text)
  | .branch condition yes no => do
    if ← holds condition then runAll kernel yes else runAll kernel no
  | .loop body => repeatBody (runAll kernel body) kernel.fuel
  | .attempt body name handler => do
    match ← Run.observe (runAll kernel body) with
    | .ok flow => return flow
    | .error .outOfFuel => Run.fail .outOfFuel
    | .error fault =>
      Run.setVariable name (← Run.valueOf fault.datum)
      runAll kernel handler
  | .act action target => do
    let _ ← actInto kernel action target
    return .onward

end

/-- The frame of a callback: the first argument as `self`, the others as `a1`, `a2`, … -/
def frameOf : List Value → Table String Value
  | [] => .empty
  | self :: rest =>
    ⟨("self", self) :: rest.mapIdx fun index value => ("a" ++ toString (index + 1), value)⟩

/-- Calls a callback. Its result is what it gives, or null. -/
def callback (kernel : Kernel) (body : List Stmt) (values : List Value) : Run Value := do
  match ← Run.inFrame (frameOf values) (runAll kernel body) with
  | .gave result => return result
  | _ => return .null

end Script

/-- Calls a method of a node. -/
def callNode (kernel : Kernel) (id : NodeId) (name : String) (args : Args) : Run Value :=
  match name with
  | "define" => do
    match ← args.bind [.needed "key", .needed "value"] with
    | [key, value] =>
      Run.setItem (← Run.cell id).notes key value
      return .node id
    | _ => Run.fail .wrongType
  | "add_node" => do
    match ← args.bind [.needed "node"] with
    | [child] =>
      Run.setAttribute child "parent" (.node id)
      Run.append kernel (← Run.cell id).children child
      return child
    | _ => Run.fail .wrongType
  | name => Run.lacks (.node id) name

/-- Groups of what a pattern found: the whole match, one group, or a list of several. -/
def callFound (pattern : Pattern) (found : Pattern.Match) (args : Args) : Run Value :=
  if !args.named.isEmpty then Run.fail .wrongType
  else
    match args.positional with
    | [] => Run.groupOf pattern found (.int 0)
    | [index] => Run.groupOf pattern found index
    | indices => do Run.newList (← indices.mapM (Run.groupOf pattern found)).toArray

/-- Calls a value. -/
def callValue (kernel : Kernel) (callable : Value) (args : Args) : Run Value :=
  match callable with
  | .callback _ _ body =>
    if args.named.isEmpty then Script.callback kernel body args.positional
    else Run.fail .wrongType
  | .patternRule _ _ label pattern => do
    match ← args.bind [.needed "parser"] with
    | [parser] => runPatternRule kernel label pattern parser
    | _ => Run.fail .wrongType
  | .stamp _ parser start => do
    match ← args.bind [.needed "node"] with
    | [node] => Parser.stamp kernel parser start node
    | _ => Run.fail .wrongType
  | .plugin _ => do
    match ← args.bind installParams with
    | [host, kind] => install kernel host kind
    | _ => Run.fail .wrongType
  | .captureRule => do
    match ← args.bind captureParams with
    | [parser, label, matcher, flags] => capture kernel parser label matcher flags
    | _ => Run.fail .wrongType
  | .forward => forwardCapture kernel args
  | .bound _ receiver callable =>
    kernel.invoke (.value callable) ⟨.host receiver :: args.positional, args.named⟩
  | .method _ (.host id) name => do
    match (← Run.host id).hostClass.method? name with
    | some method => method.run kernel id args
    | none => Run.lacks (.host id) name
  | .method _ (.node id) name => callNode kernel id name args
  | .method _ (.found _ pattern found) _ => callFound pattern found args
  | _ => Run.fail .wrongType

/-- Makes a call with a given depth of calls left, where loops go round at most `rounds` times. -/
def invokeAt (rounds : Nat) : Nat → Callee → Args → Run Value
  | 0, _, _ => Run.fail .tooDeep
  | depth + 1, callee, args =>
    let kernel : Kernel := ⟨rounds, invokeAt rounds depth⟩
    match callee with
    | .value callable => callValue kernel callable args
    | .method receiver name => do callValue kernel (← Run.attributeOf receiver name) args

/-- The kernel with a given number of rounds for loops and a given depth of calls. -/
def Kernel.ofDepth (rounds depth : Nat) : Kernel := ⟨rounds, invokeAt rounds depth⟩

end Rulebook
