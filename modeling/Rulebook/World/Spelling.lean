import Rulebook.World
import Rulebook.Text.Quoted

/-!
# How values are spelled

The names of classes and callables, and the text that stands for a value in a message: a text
between quotes inside other values, and as it is in running text.
-/

namespace Rulebook.World

/-! ## Names -/

/-- The name of a value's class. -/
def className (world : World) : Value → String
  | .null => "NoneType"
  | .bool _ => "bool"
  | .int _ => "int"
  | .decimal _ => "float"
  | .text _ => "str"
  | .bytes _ => "bytes"
  | .list _ => "list"
  | .record _ => "dict"
  | .location _ _ _ _ => "Location"
  | .span _ _ _ => "Span"
  | .node _ => "Node"
  | .host id => (world.host id).hostClass.name
  | .found _ _ _ => "Match"
  | .pattern _ => "Pattern"
  | .kind _ => "HostKind"
  | .callback _ _ _ | .patternRule _ _ _ _ | .stamp _ _ _ | .plugin _ | .captureRule
  | .forward => "function"
  | .method _ (.found _ _ _) _ => "builtin_function_or_method"
  | .bound _ _ _ | .method _ _ _ => "method"

/-- The name of the module that a dialect's classes belong to. -/
def moduleName : Dialect → String
  | .plain => "re"
  | .extended => "_regex"

/-- The name of a value's class in a complaint about its attributes. -/
def fullClassName (world : World) (value : Value) : String :=
  match value with
  | .found _ pattern _ | .pattern pattern =>
    moduleName pattern.dialect ++ "." ++ world.className value
  | value => world.className value

/-- The name of the class whose attributes a value has when they are read. A callable with a settled
argument has those of the callable. -/
def readClassName (world : World) : Value → String
  | .bound _ _ callable => readClassName world callable
  | .method _ (.node _) _ | .method _ (.host _) _ => world.className .captureRule
  | value => world.fullClassName value

/-- The name that a callable goes by. -/
def callableName : Value → String
  | .callback _ name _ | .patternRule _ name _ _ => name
  | .stamp _ _ _ => "stamp"
  | .plugin _ => "install"
  | .captureRule => "capture"
  | .forward => "_forward"
  | .bound _ _ callable => callableName callable
  | .method _ _ name => name
  | _ => ""

/-! ## Spelling -/

/-- Texts with a comma between them. -/
def joined (parts : List String) : String := ", ".intercalate parts

/-- A text cut off behind some characters. -/
def cut (count : Nat) (text : String) : String := String.ofList (text.toList.take count)

/-- The flags of a pattern by their names, in the order of the plain dialect. -/
def plainFlagNames (flags : Flags) : List String :=
  (if flags.ignoreCase then ["re.IGNORECASE"] else []) ++
    (if flags.multiline then ["re.MULTILINE"] else []) ++
    (if flags.dotAll then ["re.DOTALL"] else []) ++
    (if flags.verbose then ["re.VERBOSE"] else []) ++
    (if flags.ascii then ["re.ASCII"] else [])

/-- The flags of a pattern by their names, in the order of the extended dialect, which has its
version among them. -/
def extendedFlagNames (flags : Flags) : List String :=
  (if flags.ascii then ["regex.A"] else []) ++ (if flags.dotAll then ["regex.S"] else []) ++
    (if flags.ignoreCase then ["regex.I"] else []) ++
    (if flags.multiline then ["regex.M"] else []) ++
    (if flags.verbose then ["regex.X"] else []) ++ ["regex.V0"]

/-- A text or byte string between quotes. -/
def quotedText (binary : Bool) (text : String) : String :=
  if binary then Text.quotedBytes text else Text.quoted text

/-- A pattern with its source and its flags. -/
def spellPattern (pattern : Pattern) : String :=
  let source := quotedText pattern.binary pattern.source
  match pattern.dialect with
  | .plain =>
    "re.compile(" ++ ", ".intercalate (cut 200 source ::
      match plainFlagNames pattern.flags with
      | [] => []
      | names => ["|".intercalate names]) ++ ")"
  | .extended =>
    "regex.Regex(" ++ source ++ ", flags=" ++
      " | ".intercalate (extendedFlagNames pattern.flags) ++ ")"

/-- What a pattern found, in short. -/
def spellFound (pattern : Pattern) (found : Pattern.Match) : String :=
  let text := quotedText pattern.binary (String.ofList found.text)
  let (name, text) := match pattern.dialect with
    | .plain => ("re", cut 50 text)
    | .extended => ("regex", text)
  "<" ++ name ++ ".Match object; span=(" ++ toString found.start ++ ", " ++ toString found.stop ++
    "), match=" ++ text ++ ">"

/-- A value as it is spelled inside messages, inside the values of `path`. What is inside itself is
three dots. -/
def spellWithin (world : World) : Nat → List Value → Value → String
  | 0, _, _ => "..."
  | fuel + 1, path, value =>
    let repeats := path.any value.same
    let inner := spellWithin world fuel (value :: path)
    match value with
    | .null => "None"
    | .bool value => if value then "True" else "False"
    | .int value => toString value
    | .decimal value => value.spelling
    | .text value => Text.quoted value
    | .bytes value => Text.quotedBytes value
    | .list ref =>
      if repeats then "[...]"
      else "[" ++ joined ((world.items ref).toList.map inner) ++ "]"
    | .record ref =>
      if repeats then "\x7b...\x7d"
      else
        "\x7b" ++ joined ((world.record ref).values.map fun entry =>
          inner entry.name ++ ": " ++ inner entry.value) ++ "\x7d"
    | .location _ line column offset =>
      if repeats then "..."
      else
        "Location(line=" ++ inner line ++ ", column=" ++ inner column ++ ", offset=" ++
          inner offset ++ ")"
    | .span _ start stop =>
      if repeats then "..."
      else "Span(start=" ++ inner start ++ ", end=" ++ inner stop ++ ")"
    | .node id =>
      if repeats then "..."
      else
        let cell := world.cell id
        "Node(type=" ++ inner cell.label ++ ", val=" ++ inner cell.val ++ ", position=" ++
          inner cell.position ++ ", nodes=" ++ inner cell.children ++ ")"
    | .host id => "<" ++ (world.host id).hostClass.name ++ " object>"
    | .found _ pattern found => spellFound pattern found
    | .pattern pattern => spellPattern pattern
    | .kind .facade => "<HostKind.FACADE: 'facade'>"
    | .kind .parser => "<HostKind.PARSER: 'parser'>"
    | .bound _ _ callable => "<bound method " ++ callableName callable ++ ">"
    | .method _ _ name => "<bound method " ++ name ++ ">"
    | callable => "<function " ++ callableName callable ++ ">"

section SpellWithin

variable {world : World} {fuel : Nat} {path : List Value}

theorem spellWithin_null : world.spellWithin (fuel + 1) path .null = "None" := rfl

theorem spellWithin_int {number : Int} :
    world.spellWithin (fuel + 1) path (.int number) = toString number := rfl

theorem spellWithin_text {text : String} :
    world.spellWithin (fuel + 1) path (.text text) = Text.quoted text := rfl

theorem spellWithin_items {ref : ListRef} :
    world.spellWithin (fuel + 1) path (.list ref) =
      if path.any (Value.list ref).same then "[...]"
      else
        "[" ++ joined ((world.items ref).toList.map
          (world.spellWithin fuel (.list ref :: path))) ++ "]" := rfl

theorem spellWithin_record {ref : RecordRef} :
    world.spellWithin (fuel + 1) path (.record ref) =
      if path.any (Value.record ref).same then "\x7b...\x7d"
      else
        "\x7b" ++ joined ((world.record ref).values.map fun entry =>
          world.spellWithin fuel (.record ref :: path) entry.name ++ ": " ++
            world.spellWithin fuel (.record ref :: path) entry.value) ++ "\x7d" := rfl

theorem spellWithin_location {serial : Nat} {line column offset : Value} :
    world.spellWithin (fuel + 1) path (.location serial line column offset) =
      let inner := world.spellWithin fuel (.location serial line column offset :: path)
      if path.any (Value.location serial line column offset).same then "..."
      else
        "Location(line=" ++ inner line ++ ", column=" ++ inner column ++ ", offset=" ++
          inner offset ++ ")" := rfl

theorem spellWithin_span {serial : Nat} {start stop : Value} :
    world.spellWithin (fuel + 1) path (.span serial start stop) =
      let inner := world.spellWithin fuel (.span serial start stop :: path)
      if path.any (Value.span serial start stop).same then "..."
      else "Span(start=" ++ inner start ++ ", end=" ++ inner stop ++ ")" := rfl

theorem spellWithin_node {id : NodeId} :
    world.spellWithin (fuel + 1) path (.node id) =
      let inner := world.spellWithin fuel (.node id :: path)
      if path.any (Value.node id).same then "..."
      else
        "Node(type=" ++ inner (world.cell id).label ++ ", val=" ++ inner (world.cell id).val ++
          ", position=" ++ inner (world.cell id).position ++ ", nodes=" ++
          inner (world.cell id).children ++ ")" := rfl

theorem spellWithin_host {id : HostId} :
    world.spellWithin (fuel + 1) path (.host id) =
      "<" ++ (world.host id).hostClass.name ++ " object>" := rfl

end SpellWithin

/-- A value as it is spelled inside messages. -/
def spell (world : World) (value : Value) : String := world.spellWithin (world.extent + 1) [] value

/-- A value as it stands in running text: a text is itself. -/
def plainText (world : World) (value : Value) : String :=
  match value with
  | .text value => value
  | .kind .facade => "HostKind.FACADE"
  | .kind .parser => "HostKind.PARSER"
  | value => world.spell value

end Rulebook.World
