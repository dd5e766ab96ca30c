import Rulebook.Pattern.Expr

/-!
# The text that a pattern is matched against

A place in a text is the number of characters before it. This module has what both dialects ask of
a text: the characters next to a place, the anchors that hold there, and the characters between
two places; and it has the result of matching.
-/

namespace Rulebook.Pattern

/-- A text to match against. -/
abbrev Subject := Array Char

namespace Subject

/-- The character before a place. -/
def before? (text : Subject) (place : Nat) : Option Char :=
  if place = 0 then none else text[place - 1]?

/-- The characters from one place to another. -/
def slice (text : Subject) (start stop : Nat) : List Char :=
  (text.extract start stop).toList

/-- The place one character on, if there is a character and it passes a test; looking `backward`
this is the place before. -/
def step? (text : Subject) (backward : Bool) (passes : Char → Bool) (place : Nat) : Option Nat :=
  if backward then
    if (text.before? place).any passes then some (place - 1) else none
  else if text[place]?.any passes then some (place + 1) else none

/-- The place behind an expected text; looking `backward` the text is expected in front. -/
def skip? (text : Subject) (backward : Bool) (same : Char → Char → Bool) (expected : List Char)
    (place : Nat) : Option Nat :=
  (if backward then expected.reverse else expected).foldlM
    (fun place char => text.step? backward (same char) place) place

/-- The places reached by taking characters that pass a test, up to a greatest number of them, the
farthest first. -/
def reach (text : Subject) (backward : Bool) (passes : Char → Bool) :
    (most : Nat) → Nat → List Nat → List Nat
  | 0, place, reached => place :: reached
  | most + 1, place, reached =>
    match text.step? backward passes place with
    | some next => reach text backward passes most next (place :: reached)
    | none => place :: reached

/-- The places where a repetition of one test may end, the farthest first. -/
def ends (text : Subject) (backward : Bool) (passes : Char → Bool) (least : Nat)
    (most : Option Nat) (place : Nat) : List Nat :=
  let reached := text.reach backward passes (min text.size (most.getD text.size)) place []
  reached.take (reached.length - least)

end Subject

/-- Whether an anchor holds at a place. -/
def Anchor.holds (condition : Anchor) (text : Subject) (place : Nat) : Bool :=
  match condition with
  | .textStart => place == 0
  | .textEnd => place == text.size
  | .finalEnd => place == text.size || (place + 1 == text.size && text[place]? == some '\n')
  | .lineStart => place == 0 || text.before? place == some '\n'
  | .lineEnd => place == text.size || text[place]? == some '\n'
  | .wordEdge manner edge =>
    if manner.dialect == .plain && text.isEmpty then false
    else
      ((text.before? place).any (isWord manner) != text[place]?.any (isWord manner)) == edge
  | .before test => text[place]?.any test.holds

/-- Whether a count is still below its bound. -/
def below (count : Nat) : Option Nat → Bool
  | none => true
  | some most => count < most

/-- What a successful match found. -/
structure Match where
  /-- Where the matched text begins, counted from where matching began. -/
  start : Nat
  /-- Where the match ended, which may be before the matched text begins. -/
  stop : Nat
  text : List Char
  groups : List (Option (List Char))
  names : List (String × Nat)
deriving Repr, DecidableEq, Inhabited

namespace Match

/-- The match between two places, with the borders of its groups where they took part. -/
def ofBorders (text : Subject) (start stop : Nat) (groups : List (Option (Nat × Nat)))
    (names : List (String × Nat)) : Match where
  start
  stop
  text := text.slice start stop
  groups := groups.map fun borders => borders.map fun (start, stop) => text.slice start stop
  names

/-- The text of a numbered group; group 0 is the whole match. -/
def group? (found : Match) (index : Nat) : Option (Option (List Char)) :=
  if index = 0 then some (some found.text) else found.groups[index - 1]?

/-- The text of a named group. -/
def named? (found : Match) (name : String) : Option (Option (List Char)) :=
  match found.names.lookup name with
  | some index => found.group? index
  | none => none

end Match

end Rulebook.Pattern
