import Rulebook.Value

/-!
# Hosts

A host is what rules and plugins work on. A parser has records of rules and patterns, an input with
a cursor, the root of a tree, and a stack of open nodes. A facade owns a parser that it hands texts
to. The class of a host settles its methods; anything else a host is given becomes a member of that
one host, and what a host was given comes before a method of the same name.

A class that is both kinds sets up only what its first kind sets up, so every part of a host may
be missing; and all parts but the cursor can be replaced by any value.
-/

namespace Rulebook

/-- The classes of hosts. -/
inductive HostClass
  | parser
  | facade
  | subParser
  | subFacade
  /-- Both kinds, set up as a facade. -/
  | facadeFirst
  /-- Both kinds, set up as a parser. -/
  | parserFirst
  /-- Neither kind. -/
  | thing
deriving Repr, DecidableEq, Inhabited

namespace HostClass

/-- The name of a class. -/
def name : HostClass → String
  | .parser => "Parser"
  | .facade => "Facade"
  | .subParser => "SubParser"
  | .subFacade => "SubFacade"
  | .facadeFirst => "Hybrid"
  | .parserFirst => "HybridParserFirst"
  | .thing => "Thing"

/-- Whether hosts of a class are of a kind. -/
def isA : HostClass → HostKind → Bool
  | .parser, .parser | .subParser, .parser => true
  | .facade, .facade | .subFacade, .facade => true
  | .facadeFirst, _ | .parserFirst, _ => true
  | _, _ => false

end HostClass

/-- The methods of parsers. -/
inductive ParserMethod
  | reset
  | location
  | define
  | use
  | set
  | get
  | position
  | match
  | node
  | prev
  | push
  | pop
  | apply
  | parse
  | step
  | advance
deriving Repr, DecidableEq, Inhabited

/-- The methods of facades. -/
inductive FacadeMethod
  | define
  | use
  | parse
deriving Repr, DecidableEq, Inhabited

/-- The name under which a parser's method is called. -/
def ParserMethod.name : ParserMethod → String
  | .reset => "reset"
  | .location => "location"
  | .define => "define"
  | .use => "use"
  | .set => "set"
  | .get => "get"
  | .position => "position"
  | .match => "match"
  | .node => "node"
  | .prev => "prev"
  | .push => "push"
  | .pop => "pop"
  | .apply => "apply"
  | .parse => "parse"
  | .step => "_step"
  | .advance => "_advance_text"

/-- All methods of parsers. -/
def ParserMethod.all : List ParserMethod :=
  [.reset, .location, .define, .use, .set, .get, .position, .match, .node, .prev, .push, .pop,
    .apply, .parse, .step, .advance]

/-- The name under which a facade's method is called. -/
def FacadeMethod.name : FacadeMethod → String
  | .define => "define"
  | .use => "use"
  | .parse => "parse"

/-- All methods of facades. -/
def FacadeMethod.all : List FacadeMethod := [.define, .use, .parse]

/-- A method of a host. -/
inductive HostMethod
  | parser (method : ParserMethod)
  | facade (method : FacadeMethod)
deriving Repr, DecidableEq, Inhabited

/-- The parser's method with a name. -/
def ParserMethod.named? (name : String) : Option HostMethod :=
  (ParserMethod.all.find? fun method => method.name == name).map .parser

/-- The facade's method with a name. -/
def FacadeMethod.named? (name : String) : Option HostMethod :=
  (FacadeMethod.all.find? fun method => method.name == name).map .facade

/-- The method that a class has under a name. -/
def HostClass.method? (hostClass : HostClass) (name : String) : Option HostMethod :=
  match hostClass with
  | .parser | .subParser => ParserMethod.named? name
  | .facade | .subFacade => FacadeMethod.named? name
  | .facadeFirst => FacadeMethod.named? name <|> ParserMethod.named? name
  | .parserFirst => ParserMethod.named? name <|> FacadeMethod.named? name
  | .thing => none

/-- A host. -/
structure Host where
  hostClass : HostClass
  options : Option Value
  /-- The parser that a facade owns. -/
  nested : Option Value
  /-- The rules of a parser, in the order in which they are tried. -/
  rules : Option Value
  /-- The patterns of those rules that were captured from one. -/
  patterns : Option Value
  input : Option Value
  cursor : Option Cursor
  /-- The root of the tree. -/
  root : Option Value
  /-- The open nodes, the root first. -/
  stack : Option Value
  /-- The record that the options were copied to. -/
  ownOptions : Record
  /-- The record of rules that a parser was made with. -/
  ownRules : Record
  /-- The record of patterns that a parser was made with. -/
  ownPatterns : Record
  /-- Attributes beyond those above. -/
  members : Table String Value
deriving Inhabited

namespace Host

/-- A host of a class with nothing set up. -/
def bare (hostClass : HostClass) : Host where
  hostClass
  options := none
  nested := none
  rules := none
  patterns := none
  input := none
  cursor := none
  root := none
  stack := none
  ownOptions := .empty
  ownRules := .empty
  ownPatterns := .empty
  members := .empty

/-- The attribute that a host was given under a name. -/
def attribute? (host : Host) (name : String) : Option Value :=
  match name with
  | "options" => host.options
  | "parser" => host.nested
  | "rules" => host.rules
  | "regex" => host.patterns
  | "input" => host.input
  | "ast" => host.root
  | "stack" => host.stack
  | "_i" => host.cursor.map fun cursor => .int cursor.offset
  | "_line" => host.cursor.map fun cursor => .int cursor.line
  | "_col" => host.cursor.map fun cursor => .int cursor.column
  | name => host.members.get? name

/-- The host with an attribute set. -/
def setAttribute (host : Host) (name : String) (value : Value) : Host :=
  match name with
  | "options" => { host with options := some value }
  | "parser" => { host with nested := some value }
  | "rules" => { host with rules := some value }
  | "regex" => { host with patterns := some value }
  | "input" => { host with input := some value }
  | "ast" => { host with root := some value }
  | "stack" => { host with stack := some value }
  | name => { host with members := host.members.insert name value }

end Host

end Rulebook
