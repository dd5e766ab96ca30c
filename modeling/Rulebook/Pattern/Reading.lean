import Rulebook.Pattern.Expr

/-!
# Walking through a pattern source

A source is read from left to right. A reading is how far that has come: the characters that are
left, the flags in force, the groups counted so far, their names, and which of them are still
open. This module has the steps from one character to the next, and those over what a verbose
source may hold between its parts: the plain dialect passes over it between parts only, the
extended one before nearly every character it asks for.
-/

namespace Rulebook.Pattern

open Rulebook.Text

/-- Why a source is no pattern. -/
inductive Refusal
  | malformed
  /-- A quantifier asks for more repetitions than there can be. -/
  | hugeCount
  /-- Flags ask both for ASCII alone and for more than it. -/
  | twoAlphabets
deriving Repr, DecidableEq, Inhabited

/-- Why reading stopped. -/
inductive ReadFault
  | refused (reason : Refusal)
  /-- Flags have to hold from the beginning. -/
  | restart (flags : Flags)
deriving Repr, DecidableEq, Inhabited

/-- How far a source has been read. -/
structure Reading where
  dialect : Dialect
  rest : List Char
  /-- The flags in force at this place. -/
  flags : Flags
  /-- The flags that hold for the whole pattern. -/
  whole : Flags := flags
  /-- Whether more than ASCII was asked for at this place. -/
  wide : Bool := false
  /-- Whether every character counts at this place, even in a verbose source. -/
  raw : Bool := false
  /-- Whether this is the inside of a look-behind, with no look-ahead in between. -/
  backward : Bool := false
  groupCount : Nat := 0
  names : List (String × Nat) := []
  /-- The names of an earlier reading of the same source; without one, any name may be asked for. -/
  known : Option (List (String × Nat)) := none
  /-- The groups whose closing parenthesis is still to come. -/
  opened : List Nat := []
  /-- The highest group that was referred to. -/
  wanted : Nat := 0
  /-- How many characters the closed groups consume. -/
  widths : List (Nat × Width) := []
  /-- Inside a look-behind, how many groups there were before it. -/
  groupsBefore : Option Nat := none
deriving Repr, Inhabited

/-- White space that a verbose source may hold. -/
def isSourceSpace (dialect : Dialect) (char : Char) : Bool :=
  match dialect with
  | .plain => [' ', '\t', '\n', '\r', Char.ofNat 11, Char.ofNat 12].contains char
  | .extended => isBlank char

/-- The source without the white space and comments in front. The Boolean tells whether it begins
inside a comment. In the plain dialect a line break behind a backslash does not end a comment. -/
def dropBlanks (dialect : Dialect) : Bool → List Char → List Char
  | _, [] => []
  | true, '\\' :: char :: rest =>
    dropBlanks dialect (dialect == .plain || char != '\n') rest
  | true, char :: rest => dropBlanks dialect (char != '\n') rest
  | false, char :: rest =>
    if isSourceSpace dialect char then dropBlanks dialect false rest
    else if char = '#' then dropBlanks dialect true rest
    else char :: rest

namespace Reading

/-- Whether blanks are passed over wherever a character is asked for. -/
def skips (reading : Reading) : Bool :=
  reading.dialect == .extended && reading.flags.verbose && !reading.raw

/-- What is left of the source, from the next character that counts. -/
def ahead (reading : Reading) : List Char :=
  if reading.skips then dropBlanks reading.dialect false reading.rest else reading.rest

/-- How many characters an expression consumes where it stands in the source. -/
def widthOf (reading : Reading) (expr : Expr) : Width :=
  expr.width fun index => (reading.widths.lookup index).getD .any

end Reading

/-- A reader of a part of a pattern. -/
abbrev Read := StateT Reading (Except ReadFault)

namespace Read

/-- Refuses the source for a reason. -/
def refuseFor {α : Type} (reason : Refusal) : Read α := throw (.refused reason)

/-- Refuses a malformed source. -/
def refuse {α : Type} : Read α := refuseFor .malformed

/-- How the source is classified and compared at this place. -/
def manner : Read Manner := do
  let reading ← get
  return .ofFlags reading.dialect reading.flags

/-- The dialect of the source. -/
def dialect : Read Dialect := do return (← get).dialect

/-- The next character, if there is one. -/
def peek : Read (Option Char) := do return (← get).ahead.head?

/-- Takes the next character. -/
def next : Read Char := do
  match (← get).ahead with
  | [] => refuse
  | char :: rest =>
    modify fun reading => { reading with rest }
    return char

/-- Takes the next character if it passes a test. -/
def takeIf (passes : Char → Bool) : Read (Option Char) := do
  match (← get).ahead with
  | [] => return none
  | char :: rest =>
    if passes char then
      modify fun reading => { reading with rest }
      return some char
    else return none

/-- Takes the next character if it is the given one. -/
def take (char : Char) : Read Bool := do return (← takeIf (· == char)).isSome

/-- Takes the given character where a condition holds. -/
def takeWhere (condition : Bool) (char : Char) : Read Bool :=
  if condition then take char else return false

/-- Takes the given character or refuses the source. -/
def expect (char : Char) : Read Unit := do
  if ← take char then return () else refuse

/-- Takes characters while they pass a test, at most `most` of them. -/
def takeWhile (passes : Char → Bool) : (most : Nat) → Read (List Char)
  | 0 => return []
  | most + 1 => do
    match ← takeIf passes with
    | some char => return char :: (← takeWhile passes most)
    | none => return []

/-- Takes all characters that pass a test and follow each other. -/
def takeAll (passes : Char → Bool) : Read (List Char) := do
  takeWhile passes (← get).rest.length

/-- Reads a part of the source in which every character counts. -/
def verbatim {α : Type} (part : Read α) : Read α := do
  let raw := (← get).raw
  modify fun reading => { reading with raw := true }
  let result ← part
  modify fun reading => { reading with raw }
  return result

/-- Reads a part that may turn out not to be there, and then is not read at all. -/
def attempt {α : Type} (part : Read (Option α)) : Read (Option α) := do
  let start ← get
  match ← part with
  | some result => return some result
  | none =>
    set start
    return none

/-- Skips white space and comments between the parts of a verbose source. -/
def skipBlanks : Read Unit :=
  modify fun reading =>
    if reading.flags.verbose then
      { reading with rest := dropBlanks reading.dialect false reading.rest }
    else reading

end Read

end Rulebook.Pattern
