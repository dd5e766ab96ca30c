import Rulebook.Pattern.Choice
import Rulebook.Pattern.Escape

/-!
# Reading pattern sources

A source becomes an expression: quantifiers, groups, look-arounds and alternatives around the
characters, classes and escapes. In the plain dialect flags for the whole pattern restart the
reading with these flags set from the beginning; in the extended one they hold from where they
stand to the end of the group around them. Whatever is not a pattern of the dialect is refused.

Every call of the readers that call each other uses up fuel; a source of `n` characters needs
less than `4 * n + 8` of it: between two opening parentheses at most five calls are nested, and
each of them has a closing one.
-/

namespace Rulebook.Pattern

open Rulebook.Text

/-! ## Quantifiers -/

/-- From this count on a quantifier is refused. -/
def countLimit : Nat := 0xFFFFFFFF

/-- The counts of a quantifier in braces, if the source goes on with one. -/
def readCounts : Read (Option (Nat × Option Nat)) := Read.attempt do
  let least ← Read.takeAll isAsciiDigit
  let comma ← Read.take ','
  let most ← if comma then Read.takeAll isAsciiDigit else pure least
  if ← Read.takeWhere (comma || !least.isEmpty) '\x7d' then
    let counts := (numberOf 10 least, if most.isEmpty then none else some (numberOf 10 most))
    if countLimit ≤ counts.1 || counts.2.any (countLimit ≤ ·) then
      Read.refuseFor (if (← Read.dialect) = .plain then .hugeCount else .malformed)
    else return some counts
  else return none

/-- The counts that a character asks for, if it begins a quantifier. -/
def readQuantifier (char : Char) : Read (Option (Nat × Option Nat)) := do
  if char = '*' then return some (0, none)
  else if char = '+' then return some (1, none)
  else if char = '?' then return some (0, some 1)
  else if char = '\x7b' then readCounts
  else return none

/-- The mark behind a quantifier. -/
def readGreed : Read Greed := do
  if ← Read.take '?' then return .reluctant
  else if ← Read.take '+' then return .possessive
  else return .greedy

/-- The part read last, repeated. There has to be one that is not repeated already. Repeating
something once or something empty changes nothing in the extended dialect. -/
def repeated (counts : Nat × Option Nat) (parts : List (Expr × Bool)) :
    Read (List (Expr × Bool)) := do
  match parts with
  | (body, true) :: rest =>
    let greed ← readGreed
    if counts.2.any (· < counts.1) then Read.refuse
    else if (← Read.dialect) = .extended ∧ (counts = (1, some 1) ∨ body.isHollow) then
      return (body, false) :: rest
    else return (.repetition counts.1 counts.2 greed body, false) :: rest
  | _ => Read.refuse

/-- Takes what begins a bound on errors, for which the extended dialect keeps some letters in
braces. Such bounds are refused. -/
def readErrorBound : Nat → List Char → Read (Option Unit)
  | 0, _ => return none
  | fuel + 1, seen => do
    match ← Read.takeIf fun char => ['d', 'e', 'i', 's'].contains char && !seen.contains char with
    | none => return none
    | some letter =>
      if ← Read.take ',' then readErrorBound fuel (letter :: seen)
      else Read.refuse

/-- What a character is that no quantifier begins with and that has no other meaning. -/
def readLiteral (char : Char) : Read Expr := do
  if char = '\x7b' ∧ (← Read.dialect) = .extended then
    let _ ← Read.attempt (readErrorBound 5 [])
  readSingle char.toNat

/-! ## Groups -/

/-- Whether a name may be given to a group. -/
def isGroupName : List Char → Bool
  | [] => false
  | first :: rest =>
    (isLetter first || first == '_') && rest.all fun char => isWordWide char

/-- The name of a group up to a closing character. -/
def readName (close : Char) : Read (List Char) := do
  let extended := (← Read.dialect) == .extended
  let name ← Read.takeAll fun char => char != close && !(extended && (char == ')' || char == '>'))
  Read.expect close
  return name

/-- Opens a group and gives its number. In the extended dialect groups of one name share one. -/
def openGroup (name : Option String) : Read Nat := do
  let reading ← get
  match name.bind fun name => reading.names.lookup name with
  | some index =>
    if reading.dialect = .plain then Read.refuse
    else
      set { reading with opened := index :: reading.opened }
      return index
  | none =>
    let index := reading.groupCount + 1
    let names := match name with
      | some name => reading.names ++ [(name, index)]
      | none => reading.names
    set { reading with groupCount := index, names, opened := index :: reading.opened }
    return index

/-- Closes the group opened last, behind its body. -/
def closeGroup (index : Nat) (body : Expr) : Read Expr := do
  modify fun reading =>
    { reading with
      opened := reading.opened.drop 1
      widths := (index, reading.widthOf body) :: reading.widths }
  return .group index body

/-- A reference to a group by its name. The extended dialect takes numbers and names that come
later too; in a first reading, when these are not known yet, nothing stands for them. -/
def readNamedReference : Read Expr := do
  let name ← readName ')'
  let reading ← get
  if reading.dialect = .extended ∧ name ≠ [] ∧ name.all isAsciiDigit then
    let index := numberOf 10 name
    if index = 0 then Read.refuse else readReference index
  else if !isGroupName name then Read.refuse
  else
    match (reading.names ++ reading.known.getD []).lookup (String.ofList name) with
    | some index => readReference index
    | none =>
      if reading.dialect = .extended ∧ reading.known = none then return .empty else Read.refuse

/-! ## Flags -/

/-- The flag that a letter in a group names. The letter `u` names none: it asks for more than ASCII,
which is so anyway unless the flag for ASCII is set. -/
def inlineFlag : Char → Option Flags
  | 'a' => some (Flags.ofLetter 'A')
  | 'u' => some Flags.none
  | 'i' => some (Flags.ofLetter 'i')
  | 'm' => some (Flags.ofLetter 'm')
  | 's' => some (Flags.ofLetter 's')
  | 'x' => some (Flags.ofLetter 'x')
  | _ => none

/-- The flags that letters in a group name. -/
def inlineFlags (letters : List Char) : Flags :=
  (letters.filterMap inlineFlag).foldl Flags.union Flags.none

/-- Whether a letter is about the alphabet. -/
def isAlphabetLetter (letter : Char) : Bool := letter == 'a' || letter == 'u'

/-- What flags in a group change: the letters set and, if there is a hyphen, those unset. -/
structure FlagChange where
  on : List Char
  off : Option (List Char)
deriving Repr, DecidableEq, Inhabited

namespace FlagChange

/-- The flags with the change made. In the plain dialect the letters about the alphabet take each
other's place. -/
def apply (change : FlagChange) (dialect : Dialect) (flags : Flags) : Flags :=
  let kept :=
    if dialect == .plain && change.on.any isAlphabetLetter then { flags with ascii := false }
    else flags
  (kept.union (inlineFlags change.on)).without (inlineFlags (change.off.getD []))

/-- Whether a dialect has such a change. No letter is set and unset, and in the plain dialect one
letter about the alphabet may be set and none unset. -/
def isProper (change : FlagChange) (dialect : Dialect) : Bool :=
  let off := change.off.getD []
  (change.on ++ off).all (fun letter => (inlineFlag letter).isSome) && change.off != some [] &&
    !change.on.any off.contains &&
    (dialect == .extended ||
      (!off.any isAlphabetLetter && !(change.on.contains 'a' && change.on.contains 'u')))

end FlagChange

/-- The letters of flags in a group. -/
def readFlags : Read FlagChange := do
  let on ← Read.takeAll isAsciiLetter
  let off ← if ← Read.take '-' then some <$> Read.takeAll isAsciiLetter else pure none
  let change : FlagChange := ⟨on, off⟩
  if change.isProper (← Read.dialect) then return change else Read.refuse

/-- Sets and unsets flags in the middle of a source. The plain dialect only sets them, only
`atStart`, and for the whole pattern. -/
def changeFlags (change : FlagChange) (atStart : Bool) : Read Unit := do
  let reading ← get
  let wide := reading.wide || change.on.contains 'u'
  match reading.dialect with
  | .extended =>
    set { reading with
      wide := wide && !(change.off.getD []).contains 'u'
      flags := change.apply .extended reading.flags }
  | .plain =>
    let on := inlineFlags change.on
    if change.off.isSome ∨ !atStart ∨ change.on = [] then Read.refuse
    else if on.without reading.whole = Flags.none then set { reading with wide }
    else throw (.restart (reading.whole.union on))

/-- What follows a comment in parentheses. -/
def dropComment : List Char → Option (List Char)
  | [] => none
  | ')' :: rest => some rest
  | '\\' :: _ :: rest => dropComment rest
  | _ :: rest => dropComment rest

/-- Skips a comment in parentheses, up to its end. -/
def readComment : Read Unit := do
  match dropComment (← get).rest with
  | some rest => modify fun reading => { reading with rest }
  | none => Read.refuse

/-! ## Parts, sequences and choices -/

mutual

/-- Alternatives, up to a closing parenthesis or the end. -/
def readAlternatives (fuel : Nat) (atStart : Bool) : Read (List Expr) :=
  match fuel with
  | 0 => Read.refuse
  | fuel + 1 => do
    let first ← readParts fuel atStart []
    if ← Read.take '|' then return first :: (← readAlternatives fuel false) else return [first]

/-- Parts of a sequence, the latest first, each with whether it may be repeated. -/
def readParts (fuel : Nat) (atStart : Bool) (parts : List (Expr × Bool)) : Read Expr :=
  match fuel with
  | 0 => Read.refuse
  | fuel + 1 => do
    Read.skipBlanks
    match ← Read.peek with
    | none | some '|' | some ')' => return Expr.ofList (parts.reverse.map Prod.fst)
    | some _ =>
      let char ← Read.next
      match ← readQuantifier char with
      | some counts => readParts fuel atStart (← repeated counts parts)
      | none =>
        match ← readPart fuel (atStart && parts.isEmpty) char with
        | some part => readParts fuel atStart (part :: parts)
        | none => readParts fuel atStart parts

/-- One part of a sequence, or nothing where flags or a comment stand. -/
def readPart (fuel : Nat) (atStart : Bool) (char : Char) : Read (Option (Expr × Bool)) :=
  match fuel with
  | 0 => Read.refuse
  | fuel + 1 => do
    let flags := (← get).flags
    if char = '\\' then return some (← readEscape)
    else if char = '(' then
      return (← readGroup fuel atStart).map fun body => (body, true)
    else if char = '[' then return some (← readClass, true)
    else if char = '.' then
      let set := if flags.dotAll then CharSet.all else .inline
      return some (.one ⟨set, ← Read.dialect, false, false⟩, true)
    else if char = '^' then
      return some (← anchored (if flags.multiline then .lineStart else .textStart))
    else if char = '$' then
      return some (← anchored (if flags.multiline then .lineEnd else .finalEnd))
    else return some (← readLiteral char, true)

/-- What an opening parenthesis begins. -/
def readGroup (fuel : Nat) (atStart : Bool) : Read (Option Expr) :=
  match fuel with
  | 0 => Read.refuse
  | fuel + 1 => do
    if ← Read.verbatim (Read.take '?') then
      match ← Read.verbatim (Read.takeIf ['>', '=', '!', '#', '<', 'P'].contains) with
      | some '>' => return some (.atomic (← readInner fuel (← get).flags))
      | some '=' => return some (← readLook fuel false true)
      | some '!' => return some (← readLook fuel false false)
      | some '#' =>
        readComment
        return none
      | some '<' =>
        if ← Read.take '=' then return some (← readLook fuel true true)
        else if ← Read.take '!' then return some (← readLook fuel true false)
        else if (← Read.dialect) = .extended then readNamed fuel
        else Read.refuse
      | some _ =>
        if ← Read.take '<' then readNamed fuel
        else if ← Read.take '=' then return some (← readNamedReference)
        else Read.refuse
      | none =>
        let change ← readFlags
        if ← Read.take ':' then
          return some (← readInner fuel (change.apply (← Read.dialect) (← get).flags))
        else
          Read.expect ')'
          changeFlags change atStart
          return none
    else
      let index ← openGroup none
      return some (← closeGroup index (← readInner fuel (← get).flags))

/-- A group behind the character that opens its name. -/
def readNamed (fuel : Nat) : Read (Option Expr) :=
  match fuel with
  | 0 => Read.refuse
  | fuel + 1 => do
    let name ← readName '>'
    if !isGroupName name then Read.refuse
    let index ← openGroup (some (String.ofList name))
    return some (← closeGroup index (← readInner fuel (← get).flags))

/-- A look-around. The plain dialect looks back a fixed number of characters only. -/
def readLook (fuel : Nat) (behind positive : Bool) : Read Expr :=
  match fuel with
  | 0 => Read.refuse
  | fuel + 1 => do
    let outer ← get
    let extended := outer.dialect == .extended
    set { outer with
      backward := behind && extended
      groupsBefore :=
        if behind then some (outer.groupsBefore.getD outer.groupCount) else outer.groupsBefore }
    let body ← readInner fuel outer.flags
    let reading ← get
    set { reading with groupsBefore := outer.groupsBefore, backward := outer.backward }
    let width := reading.widthOf body
    if !behind then return .look .ahead positive body
    else if extended || width.isFixed then return .look (.behind width.least) positive body
    else Read.refuse

/-- Alternatives under flags of their own, with the closing parenthesis. -/
def readInner (fuel : Nat) (flags : Flags) : Read Expr :=
  match fuel with
  | 0 => Read.refuse
  | fuel + 1 => do
    let outer ← get
    set { outer with flags }
    let alternatives ← readAlternatives fuel false
    Read.expect ')'
    modify fun reading => { reading with flags := outer.flags, wide := outer.wide }
    return .choice outer.dialect outer.backward alternatives

end

/-! ## Whole sources -/

/-- Whether a source ends with a backslash that nothing follows. -/
def endsInBackslash : List Char → Bool
  | [] => false
  | ['\\'] => true
  | '\\' :: _ :: rest => endsInBackslash rest
  | _ :: rest => endsInBackslash rest

/-- A whole source. The plain dialect refuses a backslash at the end even inside a comment. -/
def readAll : Read Expr := do
  let start ← get
  if start.dialect == .plain && endsInBackslash start.rest then Read.refuse
  let alternatives ← readAlternatives (4 * start.rest.length + 8) true
  let reading ← get
  if !reading.rest.isEmpty || reading.groupCount < reading.wanted then Read.refuse
  else if reading.wide && reading.flags.ascii then Read.refuseFor .twoAlphabets
  else return .choice start.dialect false alternatives

/-- Reads a plain source under flags, again for every flag that turns out to hold from the
beginning. -/
def readPlain (source : List Char) : (rounds : Nat) → Flags → Except Refusal (Expr × Reading)
  | 0, _ => .error .malformed
  | rounds + 1, flags =>
    let start : Reading := { dialect := .plain, rest := source, flags }
    match readAll.run start with
    | .ok result => .ok result
    | .error (.restart more) => readPlain source rounds more
    | .error (.refused reason) => .error reason

/-- Reads an extended source under flags: once for the names of its groups, then once more with
these names known from the beginning. -/
def readExtended (source : List Char) (flags : Flags) : Except Refusal (Expr × Reading) :=
  let start : Reading := { dialect := .extended, rest := source, flags }
  let result := do
    let (_, learnt) ← readAll.run start
    readAll.run { start with known := some learnt.names }
  match result with
  | .ok result => .ok result
  | .error (.refused reason) => .error reason
  | .error (.restart _) => .error .malformed

end Rulebook.Pattern
