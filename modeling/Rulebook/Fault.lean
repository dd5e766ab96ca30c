import Rulebook.Script
import Rulebook.Text.Quoted

/-!
# Faults

Why a call failed. Each fault is a cause with what it needs to be told; `Fault.className` is the
class under which it is reported and `Fault.message?` its text. Faults of type and of patterns are
reported without a text.
-/

namespace Rulebook

/-- Where a complaint about the input points: the line and the column as they are reported, and the
line of the input with a caret. -/
structure Pointer where
  line : String
  column : String
  snippet : List Char
deriving Repr, DecidableEq, Inhabited

/-- The cause of a failure. -/
inductive Fault
  /-- A close without a matching open node on top of the stack. -/
  | noOpenNode (label : String) (pointer : Pointer)
  /-- The input ended below an open node. -/
  | unclosedNode (label : String)
  /-- A rule gave a node and consumed nothing. -/
  | idleRule (rule : String)
  /-- No rule applies to what is at the cursor, as it is spelled. -/
  | unexpectedCharacter (spelling : String) (pointer : Pointer)
  | undefinedRule (label : String)
  /-- A record has no entry under a key. -/
  | missingKey (key : String)
  /-- A rule name that is no text or empty, as it is spelled. -/
  | badRuleName (spelling : String)
  /-- Flags beside something that is no pattern source. -/
  | flagsNeedSource (label : String)
  /-- Something that is neither a callable nor a text pattern, by its class. -/
  | badMatcher (label className : String)
  /-- A host of neither kind. -/
  | noHostKind
  /-- A host of both kinds. -/
  | bothHostKinds
  | hostKindMismatch (expected actual : String)
  | unknownHostKind (spelling : String)
  | noAttribute (className name : String)
  | readOnlyAttribute (className name : String)
  | frozenField (name : String)
  | noCharacter
  | noByte
  | noListItem
  /-- An item to be replaced is not there. -/
  | noListPlace
  /-- An empty list has no last item. -/
  | emptyList
  | noGroup
  /-- An index that no machine word holds. -/
  | hugeIndex
  /-- A number of repetitions that no machine word holds. -/
  | hugeCount
  /-- The entries of a record have to be pairs; this one is not. -/
  | noPair (index length : Nat)
  | wrongType
  | badPattern
  /-- A pattern repeats something too often. -/
  | hugeRepetition
  /-- The flags of a pattern ask both for ASCII alone and for more than it. -/
  | twoAlphabets (dialect : Dialect)
  | unbound (name : String)
  /-- Raised by a script. -/
  | raised (kind : RaisedKind) (text : String)
  /-- A comparison that never comes to an end. -/
  | endless
  /-- Calls or values are nested too deeply. -/
  | tooDeep
  /-- The run was cut off. -/
  | outOfFuel
deriving Repr, DecidableEq, Inhabited

namespace Fault

/-- The class of a fault raised by a script. -/
def raisedClass : RaisedKind → String
  | .value => "ValueError"
  | .malformed => "SyntaxError"
  | .missingKey => "KeyError"
  | .configuration => "ConfigurationError"

/-- The class under which a fault is reported. -/
def className : Fault → String
  | .noOpenNode _ _ | .unclosedNode _ | .idleRule _ | .unexpectedCharacter _ _ => "SyntaxError"
  | .undefinedRule _ | .missingKey _ => "KeyError"
  | .badRuleName _ | .flagsNeedSource _ | .badMatcher _ _ | .noHostKind | .bothHostKinds
  | .hostKindMismatch _ _ => "ConfigurationError"
  | .unknownHostKind _ | .noPair _ _ | .twoAlphabets _ => "ValueError"
  | .noAttribute _ _ | .readOnlyAttribute _ _ => "AttributeError"
  | .frozenField _ => "FrozenInstanceError"
  | .noCharacter | .noByte | .noListItem | .noListPlace | .emptyList | .noGroup
  | .hugeIndex => "IndexError"
  | .hugeCount | .hugeRepetition => "OverflowError"
  | .wrongType => "TypeError"
  | .badPattern => "PatternError"
  | .unbound _ => "UnboundVariable"
  | .raised kind _ => raisedClass kind
  | .endless | .tooDeep => "RecursionError"
  | .outOfFuel => "OutOfFuel"

/-- The end of a complaint: line and column, and below them the line with the caret. -/
def pointerText (pointer : Pointer) : String :=
  pointer.line ++ ":" ++ pointer.column ++ "\n" ++ String.ofList pointer.snippet

/-- The text of a fault. -/
def message? : Fault → Option String
  | .noOpenNode label pointer =>
    some ("Parse error: no open '" ++ label ++ "' to close at " ++ pointerText pointer)
  | .unclosedNode label => some ("Parse error: unclosed '" ++ label ++ "' at end of input")
  | .idleRule rule =>
    some ("Parse error: rule '" ++ rule ++ "' produced a node without consuming input")
  | .unexpectedCharacter spelling pointer =>
    some ("Parse error: unexpected character " ++ spelling ++ " at " ++ pointerText pointer)
  | .undefinedRule label => some ("undefined rule '" ++ label ++ "'")
  | .missingKey key => some key
  | .badRuleName spelling => some ("expected a non-empty rule name, got " ++ spelling)
  | .flagsNeedSource label =>
    some ("capture " ++ Text.quoted label ++ ": flags need a pattern source string")
  | .badMatcher label className =>
    some ("capture " ++ Text.quoted label ++ ": expected a callable or a regular expression, got " ++
      className)
  | .noHostKind => some "expected an instance of Facade or Parser"
  | .bothHostKinds => some "expected an instance of Facade or Parser, not both"
  | .hostKindMismatch expected actual =>
    some ("host kind mismatch: expected " ++ expected ++ ", got " ++ actual)
  | .unknownHostKind spelling => some (spelling ++ " is not a valid HostKind")
  | .noAttribute className name =>
    some ("'" ++ className ++ "' object has no attribute '" ++ name ++ "'")
  | .readOnlyAttribute className name =>
    some ("property '" ++ name ++ "' of '" ++ className ++ "' object has no setter")
  | .frozenField name => some ("cannot assign to field " ++ Text.quoted name)
  | .noCharacter => some "string index out of range"
  | .noByte => some "index out of range"
  | .noListItem => some "list index out of range"
  | .noListPlace => some "list assignment index out of range"
  | .emptyList => some "pop from empty list"
  | .noGroup => some "no such group"
  | .hugeIndex | .hugeCount => some "cannot fit 'int' into an index-sized integer"
  | .noPair index length =>
    some ("dictionary update sequence element #" ++ toString index ++ " has length " ++
      toString length ++ "; 2 is required")
  | .wrongType | .badPattern => none
  | .hugeRepetition => some "the repetition number is too large"
  | .twoAlphabets .plain => some "ASCII and UNICODE flags are incompatible"
  | .twoAlphabets .extended =>
    some "ASCII, LOCALE and UNICODE flags are mutually incompatible"
  | .unbound name => some name
  | .raised _ text => some text
  | .endless => some "maximum recursion depth exceeded in comparison"
  | .tooDeep => some "maximum recursion depth exceeded"
  | .outOfFuel => none

/-- A fault as a script sees it: a record of its class and its text. -/
def datum (fault : Fault) : Datum :=
  .record (("error", .text fault.className) ::
    match fault.message? with
    | some text => [("message", .text text)]
    | none => [])

end Fault

end Rulebook
