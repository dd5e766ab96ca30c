import Rulebook.Capture

/-!
# Functions

The functions that scripts can call by name: they make hosts, nodes, locations and patterns, and
ask about values.
-/

namespace Rulebook

/-- A function. -/
inductive Function
  | newHost (hostClass : HostClass)
  | newNode
  | newLocation
  | newSpan
  | compilePattern
  | patternRule
  | captureRule
  | plugin
  | install
  | resolve
  | appliesTo
  | lineBounds
  | caretSnippet
  | equal
  | same
  | spell
  | has
  | call
  | stampOf
  | isRuntimeError
deriving Repr, DecidableEq, Inhabited

namespace Function

/-- The functions under their names. -/
def table : List (String × Function) :=
  [("Parser", .newHost .parser), ("Facade", .newHost .facade), ("SubParser", .newHost .subParser),
    ("SubFacade", .newHost .subFacade), ("Hybrid", .newHost .facadeFirst),
    ("HybridParserFirst", .newHost .parserFirst), ("Thing", .newHost .thing),
    ("Node", .newNode), ("Location", .newLocation), ("Span", .newSpan),
    ("compile_pattern", .compilePattern), ("pattern_rule", .patternRule),
    ("capture_rule", .captureRule), ("plugin", .plugin), ("install", .install),
    ("resolve", .resolve), ("applies_to", .appliesTo), ("line_bounds", .lineBounds),
    ("caret_snippet", .caretSnippet), ("eq", .equal), ("same", .same), ("repr", .spell),
    ("has", .has), ("call", .call), ("stamp_of", .stampOf), ("is_runtime_error", .isRuntimeError)]

/-- The parameters of a new node with a number. Whoever gives it no children and no notes leaves it
the list and the record it is made with. -/
def nodeParams (id : NodeId) : List Param :=
  [.needed "type", .optional "val" (.text ""), .optional "position" .null,
    .optional "nodes" (.list (.children id)), .optional "parent" .null,
    .optional "meta" (.record (.notes id))]

/-- The parameters of a function in a world. A call takes any number of arguments. -/
def params (world : World) : Function → List Param
  | .newHost .thing | .isRuntimeError | .call => []
  | .newHost _ | .plugin => [.optional "options" .null]
  | .newNode => nodeParams world.forest.size
  | .newLocation => [.needed "line", .needed "column", .needed "offset"]
  | .newSpan => [.needed "start", .needed "end"]
  | .compilePattern => [.needed "pat", .optional "flags" (.text "")]
  | .patternRule => [.needed "type", .needed "pattern"]
  | .captureRule => captureParams
  | .install => [.needed "host", .optional "options" .null, .optional "kind" .null]
  | .resolve => [.needed "host", .optional "kind" .null]
  | .appliesTo => [.needed "kind", .needed "host"]
  | .lineBounds | .caretSnippet => [.needed "src", .needed "pos"]
  | .equal | .same => [.needed "a", .needed "b"]
  | .spell => [.needed "x"]
  | .has => [.needed "x", .needed "name"]
  | .stampOf => [.needed "stamp", .needed "node"]

/-- The kind of host that a word names, or that is given itself. -/
def kindOf (word : Value) : Run HostKind :=
  match word with
  | .text "facade" => return .facade
  | .text "parser" => return .parser
  | .kind kind => return kind
  | other => do Run.fail (.unknownHostKind (← Run.spell other))

/-- The kind of host that a word names, or null. -/
def kindOrNull (word : Value) : Run Value :=
  match word with
  | .null => return .null
  | word => do return .kind (← kindOf word)

/-- The place that a value means in a text of the given length; null means `standard`. -/
def placeIn (length standard : Nat) (place : Value) : Run Nat :=
  match place, place.index? with
  | .null, _ => return standard
  | _, some index => return Text.placeOfIndex length index
  | _, none => Run.fail .wrongType

/-- Where the line around a place begins and where it ends; without a place, the beginning of the
last line and the end of the first. -/
def boundsAround (source place : Value) : Run (Nat × Nat) :=
  match source with
  | .text source => do
    let text := source.toList
    let start := Text.lineStart text (← placeIn text.length text.length place)
    return (start, Text.lineStop text (← placeIn text.length 0 place))
  | .bytes _ => Run.fail .wrongType
  | other => Run.lacks other "rfind"

/-- The line around a place, with a caret below it. -/
def snippetAt (source place : Value) : Run Value := do
  let (start, _) ← boundsAround source place
  match source, place.index? with
  | .text source, some index =>
    if Run.fitsWord (index - start) then
      return .ofChars (Text.caretSnippetAt source.toList index)
    else Run.fail .hugeCount
  | _, _ => Run.fail .wrongType

/-- Runs a function on the values of its parameters. -/
def apply (kernel : Kernel) (function : Function) (values : List Value) : Run Value :=
  match function, values with
  | .newHost .thing, [] => do return .host (← Run.newOfClass .thing .null)
  | .newHost hostClass, [options] => do return .host (← Run.newOfClass hostClass options)
  | .newNode, [label, val, position, children, parent, notes] => do
    let id ← Run.newNode label val position
    Run.changeCell id fun cell => { cell with children, parent, notes }
    return .node id
  | .newLocation, [line, column, offset] => do
    return .location (← Run.fresh) line column offset
  | .newSpan, [start, stop] => do return .span (← Run.fresh) start stop
  | .compilePattern, [source, flags] => do return .pattern (← Rulebook.compilePattern source flags)
  | .patternRule, [label, pattern] => makePatternRule label pattern
  | .captureRule, [parser, label, matcher, flags] => capture kernel parser label matcher flags
  | .plugin, [_] => do return .plugin (← Run.fresh)
  | .install, [host, _, kind] => do Rulebook.install kernel host (← kindOrNull kind)
  | .resolve, [host, kind] => do return .kind (← resolveKind host (← kindOrNull kind))
  | .appliesTo, [kind, host] => do
    let kind ← kindOf kind
    return .bool (((← get).kindsOf host).contains kind)
  | .lineBounds, [source, place] => do
    let (start, stop) ← boundsAround source place
    Run.newList #[.int start, .int stop]
  | .caretSnippet, [source, place] => snippetAt source place
  | .equal, [first, second] => do return .bool (← Run.equal first second)
  | .same, [first, second] => return .bool (first.same second)
  | .spell, [value] => do return .text (← Run.spell value)
  | .has, [value, .text name] => do return .bool (← Run.hasAttribute value name)
  | .stampOf, [stamp, node] => kernel.call stamp [node]
  | .isRuntimeError, [] => return .bool true
  | _, _ => Run.fail .wrongType

/-- Calls a function. -/
def invoke (kernel : Kernel) (function : Function) (args : Args) : Run Value :=
  match function, args.positional with
  | .call, callable :: rest => kernel.invoke (.value callable) ⟨rest, args.named⟩
  | .call, [] => Run.fail .wrongType
  | function, _ => do function.apply kernel (← args.bind (function.params (← get)))

end Function

end Rulebook
