import Rulebook.Cursor
import Rulebook.Script
import Rulebook.Table
import Rulebook.Pattern.Compiled

/-!
# Values

What scripts compute with: plain data, lists and records, locations and spans, references to nodes
and hosts, what a pattern found, patterns, and everything that can be called. Lists and records
can be changed by whoever refers to them, so a value holds a reference to one, and the world holds
what is in it. Values that are made anew each time they are asked for carry a serial number, which
tells them apart.

A record finds its entries by keys. Values that are equal have one key, so `1`, `1.0` and true name
the same entry; what can change has no key at all.
-/

namespace Rulebook

/-- The number of a node in the world's store. -/
abbrev NodeId := Nat

/-- The number of a host in the world's store. -/
abbrev HostId := Nat

/-- The two kinds of hosts that rules can be installed on. -/
inductive HostKind
  | facade
  | parser
deriving Repr, DecidableEq, Inhabited

/-- The word for a kind of host. -/
def HostKind.word : HostKind → String
  | .facade => "facade"
  | .parser => "parser"

/-- Where a list is. -/
inductive ListRef
  /-- The children that a node was made with. -/
  | children (node : NodeId)
  /-- The open nodes of a parser since one of its beginnings. -/
  | stack (number : Nat)
  /-- Any other list. -/
  | made (number : Nat)
deriving Repr, DecidableEq, Inhabited

/-- Where a record is. -/
inductive RecordRef
  /-- The notes that a node was made with. -/
  | notes (node : NodeId)
  /-- The options that a host was made with. -/
  | options (host : HostId)
  /-- The table of rules that a parser was made with. -/
  | rules (host : HostId)
  /-- The table of patterns that a parser was made with. -/
  | patterns (host : HostId)
  /-- Any other record. -/
  | made (number : Nat)
deriving Repr, DecidableEq, Inhabited

/-- A value. -/
inductive Value
  | null
  | bool (value : Bool)
  | int (value : Int)
  | decimal (value : Text.Decimal)
  | text (value : String)
  /-- A byte string, one character for each byte. -/
  | bytes (value : String)
  | list (ref : ListRef)
  | record (ref : RecordRef)
  /-- A place in an input as it is reported; whoever makes one up may give it anything. -/
  | location (serial : Nat) (line column offset : Value)
  /-- Where something begins and where it ends. -/
  | span (serial : Nat) (start stop : Value)
  | node (id : NodeId)
  | host (id : HostId)
  /-- What a pattern found. -/
  | found (serial : Nat) (pattern : Pattern) (value : Pattern.Match)
  | pattern (value : Pattern)
  | kind (value : HostKind)
  /-- A script that can be called. -/
  | callback (serial : Nat) (name : String) (body : List Stmt)
  /-- The rule that turns a match of a pattern into a node with a label. -/
  | patternRule (serial : Nat) (name : String) (label pattern : Value)
  /-- Stamps a node with the span from a start to wherever the parser is then. -/
  | stamp (serial : Nat) (parser : HostId) (start : Value)
  /-- Installs `capture` on a host. -/
  | plugin (serial : Nat)
  /-- Registers a rule on the parser given to it. -/
  | captureRule
  /-- Hands a capture on to the parser inside a facade. -/
  | forward
  /-- A callable whose first argument is settled. -/
  | bound (serial : Nat) (receiver : HostId) (callable : Value)
  /-- A method that belongs to a receiver by its class. -/
  | method (serial : Nat) (receiver : Value) (name : String)
deriving Inhabited

/-- What a record finds an entry by. -/
inductive Key
  | null
  /-- A number in canonical form. -/
  | number (value : Text.Decimal)
  | text (value : String)
  | bytes (value : String)
  | location (line column offset : Key)
  | span (start stop : Key)
  | node (id : NodeId)
  | host (id : HostId)
  | found (serial : Nat)
  | pattern (dialect : Dialect) (source : String) (binary : Bool) (flags : Flags)
  | kind (value : HostKind)
  | function (serial : Nat)
  | captureRule
  | forward
  | bound (receiver : HostId) (callable : Key)
  | method (receiver : Key) (name : String)
deriving Repr, DecidableEq, Inhabited

/-- What a record holds under a key: the value that first named the entry, and the value last
written to it. -/
structure Entry where
  name : Value
  value : Value
deriving Inhabited

/-- The content of a record. -/
abbrev Record := Table Key Entry

/-- The record with a value written under a key, which the name brings in if it is new. -/
def Record.write (record : Record) (key : Key) (name value : Value) : Record :=
  record.insert key ⟨((record.get? key).map Entry.name).getD name, value⟩

/-- The flags that set a pattern apart from others of the same source: in the plain dialect those
it shows, in the extended one those it was compiled under. -/
def Pattern.decisive (pattern : Pattern) : Flags :=
  match pattern.dialect with
  | .plain => pattern.flags
  | .extended => pattern.given

namespace Value

/-- The reading of a cursor. -/
def ofCursor (serial : Nat) (cursor : Cursor) : Value :=
  .location serial (.int cursor.line) (.int cursor.column) (.int cursor.offset)

/-- Characters as a text. -/
def ofChars (chars : List Char) : Value := .text (String.ofList chars)

/-- Whether a value can be called. -/
def isCallable : Value → Bool
  | .callback _ _ _ | .patternRule _ _ _ _ | .stamp _ _ _ | .plugin _ | .captureRule | .forward
  | .bound _ _ _ | .method _ _ _ => true
  | _ => false

/-- The number that a value is; true counts as one and false as zero. -/
def number? : Value → Option Text.Decimal
  | .bool value => some (.ofInt (if value then 1 else 0))
  | .int value => some (.ofInt value)
  | .decimal value => some value.exact
  | _ => none

/-- The whole number that a value stands for as an index. -/
def index? : Value → Option Int
  | .bool value => some (if value then 1 else 0)
  | .int value => some value
  | _ => none

/-- Whether two values are one and the same. -/
def same : Value → Value → Bool
  | .null, .null => true
  | .bool one, .bool other => one == other
  | .int one, .int other => one == other
  | .decimal one, .decimal other => one == other
  | .text one, .text other => one == other
  | .bytes one, .bytes other => one == other
  | .list one, .list other => one == other
  | .record one, .record other => one == other
  | .location one _ _ _, .location other _ _ _ => one == other
  | .span one _ _, .span other _ _ => one == other
  | .node one, .node other => one == other
  | .host one, .host other => one == other
  | .found one _ _, .found other _ _ => one == other
  | .pattern one, .pattern other => one == other
  | .kind one, .kind other => one == other
  | .callback one _ _, .callback other _ _ => one == other
  | .patternRule one _ _ _, .patternRule other _ _ _ => one == other
  | .stamp one _ _, .stamp other _ _ => one == other
  | .plugin one, .plugin other => one == other
  | .captureRule, .captureRule => true
  | .forward, .forward => true
  | .bound one _ _, .bound other _ _ => one == other
  | .method one _ _, .method other _ _ => one == other
  | _, _ => false

/-- The key of a value, if it has one. -/
def key? : Value → Option Key
  | .null => some .null
  | .bool value => some (.number (.ofInt (if value then 1 else 0)))
  | .int value => some (.number (.ofInt value))
  | .decimal value => some (.number value.exact)
  | .text value => some (.text value)
  | .bytes value => some (.bytes value)
  | .list _ | .record _ | .node _ => none
  | .location _ line column offset =>
    match line.key?, column.key?, offset.key? with
    | some line, some column, some offset => some (.location line column offset)
    | _, _, _ => none
  | .span _ start stop =>
    match start.key?, stop.key? with
    | some start, some stop => some (.span start stop)
    | _, _ => none
  | .host id => some (.host id)
  | .found serial _ _ => some (.found serial)
  | .pattern value =>
    some (.pattern value.dialect value.source value.binary value.decisive)
  | .kind value => some (.kind value)
  | .callback serial _ _ | .patternRule serial _ _ _ | .stamp serial _ _ | .plugin serial =>
    some (.function serial)
  | .captureRule => some .captureRule
  | .forward => some .forward
  | .bound _ receiver callable =>
    match callable.key? with
    | some callable => some (.bound receiver callable)
    | none => none
  | .method _ receiver name =>
    match receiver with
    | .node id => some (.method (.node id) name)
    | other =>
      match other.key? with
      | some receiver => some (.method receiver name)
      | none => none

end Value

/-- Matched characters as a value: a text or, from a binary pattern, a byte string. -/
def Pattern.valueOf (pattern : Pattern) (chars : List Char) : Value :=
  if pattern.binary then .bytes (String.ofList chars) else .ofChars chars

end Rulebook
