import Rulebook.Parser

/-!
# Capturing and installing

`capture` registers a rule on a parser: a callable as it is, or a pattern turned into a rule that
makes a node of every match that is not empty. Whether it was given something it can register is
settled before anything changes. Installing gives a host the method `capture`: a parser the
method itself, a facade one that hands on to its parser.
-/

namespace Rulebook

/-- Makes a rule that turns matches of a pattern into nodes with a label. -/
def makePatternRule (label pattern : Value) : Run Value := do
  let name := "capture_" ++ (← Run.plainText label)
  return .patternRule (← Run.fresh) name label pattern

/-- Tries a pattern rule: a node with the label and the matched text, stamped with its span, and
with the match in its notes. No match and an empty match give nothing. -/
def runPatternRule (kernel : Kernel) (label pattern parser : Value) : Run Value := do
  let stamp ← kernel.send parser "position" []
  match ← kernel.send parser "match" [pattern] with
  | .null => return .null
  | found =>
    if ← Run.isSet (← kernel.send found "group" [.int 0]) then
      let node ← kernel.send parser "node" [stamp, label, ← kernel.send found "group" [.int 0]]
      let _ ← kernel.send node "define" [.text "match", found]
      return node
    else return .null

/-- Whether a value is a pattern over text or the source of one. -/
def isTextPattern : Value → Bool
  | .text _ => true
  | .pattern pattern => !pattern.binary
  | _ => false

/-- Registers a callable under a name. -/
def captureCallable (kernel : Kernel) (parser : Value) (label : String) (matcher flags : Value) :
    Run Value := do
  if ← Run.isSet flags then Run.fail (.flagsNeedSource label)
  Run.notify (.callbackRule label)
  kernel.send parser "set" [.text label, matcher]

/-- Registers a pattern rule under a name, and enters the pattern in the registry before. -/
def capturePattern (kernel : Kernel) (parser : Value) (label : String) (matcher flags : Value) :
    Run Value := do
  if !isTextPattern matcher then
    Run.fail (.badMatcher label ((← get).className matcher))
  match matcher, ← Run.isSet flags with
  | .pattern _, true => Run.fail (.flagsNeedSource label)
  | _, _ =>
    let pattern ← compilePattern matcher flags
    Run.setItem (← Run.attributeOf parser "regex") (.text label) (.pattern pattern)
    Run.notify (.patternRule label (Text.quoted pattern.source))
    let rule ← makePatternRule (.text label) (.pattern pattern)
    kernel.send parser "set" [.text label, rule]

/-- Registers a rule under a name, from a callable or a pattern. -/
def capture (kernel : Kernel) (parser label matcher flags : Value) : Run Value := do
  match label, ← Run.isSet label with
  | .text name, true =>
    if matcher.isCallable then captureCallable kernel parser name matcher flags
    else capturePattern kernel parser name matcher flags
  | _, _ => Run.fail (.badRuleName (← Run.spell label))

/-- The parameters of `capture`. -/
def captureParams : List Param :=
  [.needed "parser", .needed "type", .needed "matcher", .optional "flags" (.text "")]

/-- Hands a capture on to the parser inside a facade. -/
def forwardCapture (kernel : Kernel) (args : Args) : Run Value :=
  match args.positional with
  | [] => Run.fail .wrongType
  | facade :: rest => do
    let nested ← Run.attributeOf facade "parser"
    kernel.invoke (.method nested "capture") ⟨rest, args.named⟩

/-- The kind of a host. Exactly one kind has to apply, and it has to be the expected one if one is
expected. -/
def resolveKind (host expected : Value) : Run HostKind := do
  match (← get).kindsOf host with
  | [] => Run.fail .noHostKind
  | [kind] =>
    match expected with
    | .null => return kind
    | .kind other =>
      if other = kind then return kind
      else Run.fail (.hostKindMismatch other.word kind.word)
    | other => do
      let word ← Run.plainText (← Run.attributeOf other "value")
      Run.fail (.hostKindMismatch word kind.word)
  | _ => Run.fail .bothHostKinds

/-- Installs `capture` on a host. -/
def install (kernel : Kernel) (host expected : Value) : Run Value := do
  let kind ← resolveKind host expected
  match kind with
  | .facade =>
    let nested ← Run.attributeOf host "parser"
    let _ ← kernel.send nested "define" [.text "capture", .captureRule]
    let _ ← kernel.send host "define" [.text "capture", .forward]
  | .parser =>
    let _ ← kernel.send host "define" [.text "capture", .captureRule]
  Run.notify (.installed kind)
  return .null

/-- The parameters of an installing plugin. -/
def installParams : List Param := [.needed "host", .optional "kind" .null]

end Rulebook
