import Rulebook.Attribute
import Rulebook.Text.Lines

/-!
# Parsers

A parser tries its rules in order at a cursor. A rule that moves the cursor makes a step; the node
it gives, if any, is attached below the innermost open node. A rule that gives a node without
moving the cursor is at fault, and so is an input at which no rule moves on.

The methods call each other through the parser, so that a member takes the place of a method. A
fault in the middle of a method leaves the parser as it was at that moment.
-/

namespace Rulebook

/-- The letters among flags: whatever holds values can hold them, and other values count for
nothing. -/
def flagLetters (flags : Value) : Run (List Char) := do
  let values ← Run.valuesIn flags
  let letters ← values.mapM fun value => do
    let key ← Run.keyOf value
    match key with
    | .text letter => return letter.toList
    | _ => return []
  return (letters.filter fun letter => letter.length == 1).flatten

/-- Compiles a source in a dialect or fails. -/
def Run.compile (dialect : Dialect) (source : String) (binary : Bool) (given : Flags) :
    Run Pattern :=
  match Pattern.compile dialect source binary given with
  | .ok pattern => return pattern
  | .error .malformed => Run.fail .badPattern
  | .error .hugeCount => Run.fail .hugeRepetition
  | .error .twoAlphabets => Run.fail (.twoAlphabets dialect)

/-- Compiles a pattern source under flag letters; a compiled pattern is its own compilation,
whatever the letters. -/
def compilePattern (source flags : Value) : Run Pattern :=
  match source with
  | .pattern pattern => return pattern
  | source => do
    let given := Flags.ofLetters (← flagLetters flags)
    match source with
    | .text source => Run.compile .extended source false given
    | .bytes source => Run.compile .extended source true given
    | _ => Run.fail .wrongType

namespace Parser

/-- Begins to read an input: the cursor at its start, a new root, and the root alone open. -/
def reset (id : HostId) (input : Value) : Run Unit := do
  let root ← Run.newNode (.text "root") (.text "") .null
  let stack ← Run.newStack #[.node root]
  Run.changeHost id fun host =>
    { host with
      input := some input, cursor := some .start, root := some (.node root), stack := some stack }

/-- The location of the cursor. -/
def location (id : HostId) : Run Value := do Run.locationOf (← Run.cursor id "_line")

/-- Registers a rule. A rule under a name that is taken replaces the old one in its place. -/
def setRule (id : HostId) (label rule : Value) : Run Unit := do
  Run.setItem (← Run.hostPart id "rules") label rule

/-- The rule with a name. -/
def getRule (id : HostId) (label : Value) : Run Value := do
  let rules ← Run.hostPart id "rules"
  match ← Run.observe (Run.getItem rules label) with
  | .ok rule => return rule
  | .error (.missingKey _) => do Run.fail (.undefinedRule (← Run.plainText label))
  | .error fault => Run.fail fault

/-- The location that the parser's own `location` gives. -/
def askLocation (kernel : Kernel) (id : HostId) : Run Value := kernel.sendHost id "location" []

/-- A stamp that remembers the location of the cursor. -/
def position (kernel : Kernel) (id : HostId) : Run Value := do
  let start ← askLocation kernel id
  return .stamp (← Run.fresh) id start

/-- Stamps a node with the span from a remembered location to the present one. -/
def stamp (kernel : Kernel) (id : HostId) (start node : Value) : Run Value := do
  let stop ← askLocation kernel id
  Run.setAttribute node "position" (.span (← Run.fresh) start stop)
  return node

/-- The characters of an input from the cursor on, for a pattern over text or over bytes. -/
def charsLeft (id : HostId) (binary : Bool) : Run (List Char) := do
  let input ← Run.hostPart id "input"
  let cursor ← Run.cursor id "_i"
  match input, binary with
  | .text input, false | .bytes input, true => return input.toList.drop cursor.offset
  | input, _ => do
    let _ ← Run.restOf input cursor.offset
    Run.fail .wrongType

/-- Matches a pattern at the cursor and consumes the text of the match. -/
def matchPattern (kernel : Kernel) (id : HostId) (source : Value) : Run Value := do
  let pattern ← compilePattern source (.text "")
  match pattern.match? (← charsLeft id pattern.binary) with
  | none => return .null
  | some found =>
    let serial ← Run.fresh
    let _ ← kernel.sendHost id "_advance_text" [pattern.valueOf found.text]
    return .found serial pattern found

/-- Moves the cursor behind a consumed text. -/
def advance (id : HostId) (consumed : Value) : Run Unit := do
  match consumed with
  | .text consumed =>
    let chars := consumed.toList
    let cursor ← Run.cursor id (if chars.contains '\n' then "_line" else "_col")
    Run.changeHost id fun host => { host with cursor := some (cursor.advance chars) }
  | .bytes _ => Run.fail .wrongType
  | other => do
    let _ ← Run.lengthOf other
    Run.lacks other "find"

/-- A new node, handed to a stamp. -/
def newNode (kernel : Kernel) (stamp label val : Value) : Run Value := do
  let id ← Run.newNode label val .null
  kernel.call stamp [.node id]

/-- The innermost open node. -/
def prev (id : HostId) : Run Value := do
  Run.getItem (← Run.hostPart id "stack") (.int (-1))

/-- Attaches a node without a parent below the innermost open node. -/
def attachLoose (kernel : Kernel) (id : HostId) (node : Value) : Run Unit := do
  match ← Run.attributeOf node "parent" with
  | .null =>
    let parent ← kernel.sendHost id "prev" []
    let _ ← kernel.send parent "add_node" [node]
  | _ => return ()

/-- Opens a node, which is attached first if it has no parent. -/
def push (kernel : Kernel) (id : HostId) (node : Value) : Run Value := do
  attachLoose kernel id node
  Run.append kernel (← Run.hostPart id "stack") node
  return node

/-- The line of the input at the cursor, with a caret below it. -/
def snippet (id : HostId) : Run (List Char) := do
  let input ← Run.hostPart id "input"
  let cursor ← Run.cursor id "_i"
  match input with
  | .text input => return Text.caretSnippet input.toList cursor.offset
  | .bytes _ => Run.fail .wrongType
  | other => Run.lacks other "rfind"

/-- What a complaint about the input at the cursor points at. -/
def pointer (id : HostId) (location : Value) : Run Pointer := do
  let line ← Run.plainText (← Run.attributeOf location "line")
  let column ← Run.plainText (← Run.attributeOf location "column")
  return ⟨line, column, ← snippet id⟩

/-- Complains that no open node carries a label. -/
def noOpenNode (kernel : Kernel) (id : HostId) (label : Value) : Run Value := do
  let location ← askLocation kernel id
  let text ← Run.plainText label
  Run.fail (.noOpenNode text (← pointer id location))

/-- Closes the innermost open node. It has to carry the label, and the root cannot be closed. -/
def pop (kernel : Kernel) (id : HostId) (label : Value) : Run Value := do
  let stack ← Run.hostPart id "stack"
  if (← Run.lengthOf stack) < 2 then noOpenNode kernel id label
  else
    let top ← Run.getItem stack (.int (-1))
    if ← Run.equal (← Run.attributeOf top "type") label then Run.takeLast stack
    else noOpenNode kernel id label

/-- Runs a rule. A node it gives is attached below the innermost open node unless it has a parent;
anything else it gives is dropped. -/
def apply (kernel : Kernel) (id : HostId) (label : Value) : Run Value := do
  let rule ← kernel.sendHost id "get" [label]
  match ← kernel.call rule [.host id] with
  | .node node =>
    attachLoose kernel id (.node node)
    return .node node
  | _ => return .null

/-- Tries rules in order until one moves the cursor, and tells whether one did. -/
def tryRules (kernel : Kernel) (id : HostId) : List Value → Run Bool
  | [] => return false
  | label :: rest => do
    let start := (← Run.cursor id "_i").offset
    let node ← kernel.sendHost id "apply" [label]
    if start < (← Run.cursor id "_i").offset then return true
    else
      match node with
      | .null => tryRules kernel id rest
      | _ => Run.fail (.idleRule (← Run.plainText label))

/-- What an input has at a place that was reached by reading. Of a text this is a character; no
place of a text is too far for a machine word. -/
def itemReached (input : Value) (place : Nat) : Run Value :=
  match input with
  | .text text =>
    match text.toList[place]? with
    | some char => return .ofChars [char]
    | none => Run.fail .noCharacter
  | input => Run.getItem input (.int place)

/-- Complains about what is at the cursor. -/
def complain (kernel : Kernel) (id : HostId) : Run Unit := do
  let location ← askLocation kernel id
  let input ← Run.hostPart id "input"
  let found ← itemReached input (← Run.cursor id "_i").offset
  let spelling ← Run.spell found
  Run.fail (.unexpectedCharacter spelling (← pointer id location))

/-- One step of a parse: the first rule of those now in the table that moves the cursor. -/
def step (kernel : Kernel) (id : HostId) : Run Unit := do
  let labels ← Run.valuesIn (← Run.hostPart id "rules")
  if ← tryRules kernel id labels then return ()
  else complain kernel id

/-- Steps while there is input left, at most `fuel` times. -/
def stepAll (kernel : Kernel) (id : HostId) : Nat → Run Unit
  | 0 => Run.fail .outOfFuel
  | fuel + 1 => do
    let cursor ← Run.cursor id "_i"
    if cursor.offset < (← Run.lengthOf (← Run.hostPart id "input")) then
      let _ ← kernel.sendHost id "_step" []
      stepAll kernel id fuel
    else return ()

/-- Complains about a node that is still open at the end of the input. -/
def unclosed (stack : Value) : Run Value := do
  let top ← Run.getItem stack (.int (-1))
  Run.fail (.unclosedNode (← Run.plainText (← Run.attributeOf top "type")))

/-- Reads a whole text and gives the root of its tree. Every node opened has to be closed. -/
def parse (kernel : Kernel) (id : HostId) (text : Value) : Run Value := do
  let _ ← kernel.sendHost id "reset" [text]
  stepAll kernel id kernel.fuel
  let stack ← Run.hostPart id "stack"
  if 1 < (← Run.lengthOf stack) then unclosed stack else Run.hostPart id "ast"

end Parser

/-- Makes a callable a member of a host: it is called with the host before its arguments. -/
def defineMember (id : HostId) (name callable : Value) : Run Value := do
  if !callable.isCallable then Run.fail .wrongType
  match name with
  | .text name =>
    Run.setAttribute (.host id) name (.bound (← Run.fresh) id callable)
    return .host id
  | _ => Run.fail .wrongType

/-- Hands a host to a plugin and drops what the plugin gives. -/
def usePlugin (kernel : Kernel) (id : HostId) (plugin : Value) : Run Value := do
  let _ ← kernel.call plugin [.host id]
  return .host id

/-- The parameters of a parser's method. -/
def ParserMethod.params : ParserMethod → List Param
  | .reset | .parse => [.needed "text"]
  | .location | .position | .prev | .step => []
  | .define => [.needed "name", .needed "fn"]
  | .use => [.needed "plugin"]
  | .set => [.needed "type", .needed "fn"]
  | .get | .pop | .apply => [.needed "type"]
  | .match => [.needed "pattern"]
  | .node => [.needed "pos", .needed "type", .optional "val" (.text "")]
  | .push => [.needed "node"]
  | .advance => [.needed "consumed"]

/-- Runs a parser's method. -/
def ParserMethod.run (kernel : Kernel) (id : HostId) (method : ParserMethod)
    (values : List Value) : Run Value :=
  match method, values with
  | .reset, [text] => do
    Parser.reset id text
    return .null
  | .location, [] => Parser.location id
  | .define, [name, callable] => defineMember id name callable
  | .use, [plugin] => usePlugin kernel id plugin
  | .set, [label, rule] => do
    Parser.setRule id label rule
    return .host id
  | .get, [label] => Parser.getRule id label
  | .position, [] => Parser.position kernel id
  | .match, [source] => Parser.matchPattern kernel id source
  | .node, [stamp, label, val] => Parser.newNode kernel stamp label val
  | .prev, [] => Parser.prev id
  | .push, [opened] => Parser.push kernel id opened
  | .pop, [label] => Parser.pop kernel id label
  | .apply, [label] => Parser.apply kernel id label
  | .parse, [text] => Parser.parse kernel id text
  | .step, [] => do
    Parser.step kernel id
    return .null
  | .advance, [consumed] => do
    Parser.advance id consumed
    return .null
  | _, _ => Run.fail .wrongType

/-- The parameters of a facade's method. -/
def FacadeMethod.params : FacadeMethod → List Param
  | .define => [.needed "name", .needed "fn"]
  | .use => [.needed "plugin"]
  | .parse => [.needed "text"]

/-- Runs a facade's method. A text is handed to the parser inside. -/
def FacadeMethod.run (kernel : Kernel) (id : HostId) (method : FacadeMethod)
    (values : List Value) : Run Value :=
  match method, values with
  | .define, [name, callable] => defineMember id name callable
  | .use, [plugin] => usePlugin kernel id plugin
  | .parse, [text] => do
    let nested ← Run.attributeOf (.host id) "parser"
    kernel.send nested "parse" [text]
  | _, _ => Run.fail .wrongType

/-- Runs a host's method. -/
def HostMethod.run (kernel : Kernel) (id : HostId) (method : HostMethod) (args : Args) :
    Run Value :=
  match method with
  | .parser method => do method.run kernel id (← args.bind method.params)
  | .facade method => do method.run kernel id (← args.bind method.params)

namespace Run

/-- A copy of options, which may be left out. -/
def copyOptions (options : Value) : Run Record := do
  if ← isSet options then recordFrom options else return .empty

/-- A new host set up as a parser. -/
def newParser (hostClass : HostClass) (options : Value) : Run HostId := do
  let options ← copyOptions options
  let id ← newHost fun id =>
    { Host.bare hostClass with
      options := some (.record (.options id)), ownOptions := options
      rules := some (.record (.rules id)), patterns := some (.record (.patterns id)) }
  Parser.reset id (.text "")
  return id

/-- A new host set up as a facade, with a parser of its own inside. -/
def newFacade (hostClass : HostClass) (options : Value) : Run HostId := do
  let options ← copyOptions options
  let id ← newHost fun id =>
    { Host.bare hostClass with options := some (.record (.options id)), ownOptions := options }
  let nested ← newParser .parser (.record (.options id))
  changeHost id fun host => { host with nested := some (.host nested) }
  return id

/-- A new host of a class. -/
def newOfClass (hostClass : HostClass) (options : Value) : Run HostId :=
  match hostClass with
  | .parser | .subParser | .parserFirst => newParser hostClass options
  | .facade | .subFacade | .facadeFirst => newFacade hostClass options
  | .thing => newHost fun _ => .bare .thing

end Run

end Rulebook
