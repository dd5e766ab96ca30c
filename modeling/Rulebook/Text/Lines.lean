/-!
# Lines of a text

A text is a list of characters, and only `'\n'` ends a line: the other separators of Unicode,
and a carriage return, are ordinary characters of a line. A place is the number of characters
before it. This module finds the line around a place and draws a caret under a place.
-/

namespace Rulebook.Text

/-- Whether a character goes on the current line. -/
def staysOnLine (char : Char) : Bool := char != '\n'

/-- The place where the line around `place` begins: just after the last line break before it. -/
def lineStart (text : List Char) (place : Nat) : Nat :=
  let before := text.take place
  before.length - (before.reverse.takeWhile staysOnLine).length

/-- The place where the line around `place` ends: at the first line break from `place` on, or at
the end of the text. A place beyond the text belongs to its last line. -/
def lineStop (text : List Char) (place : Nat) : Nat :=
  if place ≤ text.length then place + ((text.drop place).takeWhile staysOnLine).length
  else text.length

/-- Where the line around `place` begins and where it ends. -/
def lineBounds (text : List Char) (place : Nat) : Nat × Nat :=
  (lineStart text place, lineStop text place)

/-- The characters of a text from one place up to another. -/
def slice (text : List Char) (start stop : Nat) : List Char :=
  (text.take stop).drop start

/-- The line around `place`, and below it a caret under the character at `place`. -/
def caretSnippet (text : List Char) (place : Nat) : List Char :=
  let start := lineStart text place
  slice text start (lineStop text place) ++ '\n' :: (List.replicate (place - start) ' ' ++ ['^'])

/-- The place that an index means: a negative index counts from the end of a text of the given
length, and stops at its beginning. -/
def placeOfIndex (length : Nat) (index : Int) : Nat :=
  if index < 0 then (index + length).toNat else index.toNat

/-- The caret snippet for an index. A caret never stands left of its line. -/
def caretSnippetAt (text : List Char) (index : Int) : List Char :=
  let place := placeOfIndex text.length index
  let start := lineStart text place
  slice text start (lineStop text place) ++
    '\n' :: (List.replicate (index - start).toNat ' ' ++ ['^'])

end Rulebook.Text
