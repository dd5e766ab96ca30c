import Rulebook.Item

/-!
# Attributes

Reading and writing what a value is made of by name. What a node computes from its notes and
children and a parser from its input cannot be written; then comes what the value was given, and
last the methods of its class. Locations and spans are frozen, and plain data take no attributes.
-/

namespace Rulebook.Run

/-- The names that nodes have methods under. -/
def nodeMethods : List String := ["define", "add_node"]

/-- A method of a value, made anew. -/
def methodOf (receiver : Value) (name : String) : Run Value := do
  return .method (← fresh) receiver name

/-- The first child of a node, or null. -/
def firstChild (cell : NodeCell) : Run Value := do
  if ← isSet cell.children then getItem cell.children (.int 0) else return .null

/-- An attribute of a node. -/
def nodeAttribute (id : NodeId) (name : String) : Run Value := do
  let cell ← cell id
  if name = "match" then entryOrNull cell.notes (.text "match")
  else if name = "first" then firstChild cell
  else
    match cell.attribute? name with
    | some value => return value
    | none =>
      if name ∈ nodeMethods then methodOf (.node id) name else lacks (.node id) name

/-- An attribute that a host was given. -/
def hostPart (id : HostId) (name : String) : Run Value := do
  match (← host id).attribute? name with
  | some value => return value
  | none => lacks (.host id) name

/-- The cursor of a host; a host without one lacks the attribute named. -/
def cursor (id : HostId) (lacking : String) : Run Cursor := do
  match (← host id).cursor with
  | some cursor => return cursor
  | none => lacks (.host id) lacking

/-- What is left of the input of a host from its cursor on. -/
def inputLeft (id : HostId) : Run Value := do
  let input ← hostPart id "input"
  restOf input (← cursor id "_i").offset

/-- Whether an attribute of a host is computed from others. -/
def isComputed (host : Host) (name : String) : Bool :=
  name == "rest" && host.hostClass.isA .parser

/-- An attribute of a host. -/
def hostAttribute (id : HostId) (name : String) : Run Value := do
  let host ← host id
  if isComputed host name then inputLeft id
  else
    match host.attribute? name, host.hostClass.method? name with
    | some value, _ => return value
    | none, some _ => methodOf (.host id) name
    | none, none => lacks (.host id) name

/-- An attribute that a value other than a node or a host was given. -/
def extra (value : Value) (name : String) : Run Value := do
  match (value.key?.bind (← get).extras.get?).bind (·.get? name) with
  | some content => return content
  | none => lacks value name

/-- An attribute of a value. A callable with a settled argument has those of the callable. -/
def attributeOf (value : Value) (name : String) : Run Value :=
  match value, name with
  | .node id, name => nodeAttribute id name
  | .host id, name => hostAttribute id name
  | .location _ line _ _, "line" => return line
  | .location _ _ column _, "column" => return column
  | .location _ _ _ offset, "offset" => return offset
  | .span _ start _, "start" => return start
  | .span _ _ stop, "end" => return stop
  | .found serial pattern found, "group" => methodOf (.found serial pattern found) "group"
  | .kind kind, "value" => return .text kind.word
  | .bound _ _ callable, name => attributeOf callable name
  | .method _ _ _, name => lacks value name
  | value, name => extra value name

/-- Gives a value other than a node or a host an attribute. -/
def setExtra (value : Value) (name : String) (content : Value) : Run Unit := do
  let key ← keyOf value
  modify fun world =>
    let given := (world.extras.get? key).getD .empty
    { world with extras := world.extras.insert key (given.insert name content) }

/-- Writes an attribute of a value. -/
def setAttribute (value : Value) (name : String) (content : Value) : Run Unit :=
  match value with
  | .node id =>
    if name = "match" ∨ name = "first" then fail (.readOnlyAttribute "Node" name)
    else changeCell id fun cell => cell.setAttribute name content
  | .host id => do
    let host ← host id
    if isComputed host name then fail (.readOnlyAttribute host.hostClass.name name)
    else changeHost id fun host => host.setAttribute name content
  | .location _ _ _ _ | .span _ _ _ => fail (.frozenField name)
  | .kind _ | .callback _ _ _ | .patternRule _ _ _ _ | .stamp _ _ _ | .plugin _ | .captureRule
  | .forward => setExtra value name content
  | value => do fail (.noAttribute ((← get).fullClassName value) name)

/-- Whether a value has an attribute. Only a missing attribute is an answer; any other fault in
finding out stays a fault. -/
def hasAttribute (value : Value) (name : String) : Run Bool := do
  match ← observe (attributeOf value name) with
  | .ok _ => return true
  | .error (.noAttribute _ _) => return false
  | .error fault => fail fault

end Rulebook.Run
