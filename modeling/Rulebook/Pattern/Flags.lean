/-!
# Dialects and flags of patterns

Patterns come in two dialects. The extended one knows Unicode properties, the anchor that drops
what was matched before it, and flags for the whole pattern written anywhere in it; the plain one
knows none of these and has a narrower notion of a word. Five flags change how a pattern is read
or matched, each named by a letter.
-/

namespace Rulebook

/-- The two dialects of the pattern language. -/
inductive Dialect
  | plain
  | extended
deriving Repr, DecidableEq, Inhabited

/-- The flags of a pattern. -/
structure Flags where
  /-- Letters match without regard to case (`i`). -/
  ignoreCase : Bool := false
  /-- `^` and `$` match at every line (`m`). -/
  multiline : Bool := false
  /-- The dot matches a line break too (`s`). -/
  dotAll : Bool := false
  /-- White space and comments in the source are skipped (`x`). -/
  verbose : Bool := false
  /-- Character classes and case are those of ASCII (`A`). -/
  ascii : Bool := false
deriving Repr, DecidableEq, Inhabited

namespace Flags

/-- No flag set. -/
def none : Flags := ⟨false, false, false, false, false⟩

/-- The flag that a letter names; other letters name none. -/
def ofLetter : Char → Flags
  | 'i' => ⟨true, false, false, false, false⟩
  | 'm' => ⟨false, true, false, false, false⟩
  | 's' => ⟨false, false, true, false, false⟩
  | 'x' => ⟨false, false, false, true, false⟩
  | 'A' => ⟨false, false, false, false, true⟩
  | _ => none

/-- The flags set in either. -/
def union (first second : Flags) : Flags where
  ignoreCase := first.ignoreCase || second.ignoreCase
  multiline := first.multiline || second.multiline
  dotAll := first.dotAll || second.dotAll
  verbose := first.verbose || second.verbose
  ascii := first.ascii || second.ascii

/-- The flags of the first that the second does not set. -/
def without (first second : Flags) : Flags where
  ignoreCase := first.ignoreCase && !second.ignoreCase
  multiline := first.multiline && !second.multiline
  dotAll := first.dotAll && !second.dotAll
  verbose := first.verbose && !second.verbose
  ascii := first.ascii && !second.ascii

/-- The flags that a list of letters names, whatever their order and repetition. -/
def ofLetters (letters : List Char) : Flags :=
  letters.foldl (fun flags letter => flags.union (ofLetter letter)) none

/-- The letters of the flags that are set, in the order `imsxA`. The extended dialect does not
report its ASCII flag. -/
def letters (dialect : Dialect) (flags : Flags) : List Char :=
  (if flags.ignoreCase then ['i'] else []) ++ (if flags.multiline then ['m'] else []) ++
    (if flags.dotAll then ['s'] else []) ++ (if flags.verbose then ['x'] else []) ++
    (if flags.ascii && dialect == .plain then ['A'] else [])

end Flags

end Rulebook
