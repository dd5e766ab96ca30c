import Rulebook.Pattern.Flags
import Rulebook.Text.Case

/-!
# Tests on one character

A set of characters is built from single characters, ranges and shorthands such as "a digit" by
union and complement. Without regard to case a character is in a set if one of its case variants
is, and in a complement if none of them is in what is left out. The dialect and the ASCII flag
decide which characters a shorthand means and which letters are variants of each other.
-/

namespace Rulebook.Pattern

open Rulebook.Text

/-- Classes of characters with a name of their own. -/
inductive Shorthand
  | digit
  | word
  | space
  | letter
  | uppercase
  | lowercase
  | number
deriving Repr, DecidableEq, Inhabited

/-- How characters are classified and compared. -/
structure Manner where
  dialect : Dialect
  ignoreCase : Bool
  ascii : Bool
deriving Repr, DecidableEq, Inhabited

/-- The manner that a dialect and flags call for. -/
def Manner.ofFlags (dialect : Dialect) (flags : Flags) : Manner :=
  ⟨dialect, flags.ignoreCase, flags.ascii⟩

/-- The manner with regard to case. -/
def Manner.strict (manner : Manner) : Manner := { manner with ignoreCase := false }

/-- The characters of a shorthand, before ASCII cuts them down. -/
def Shorthand.holdsWide (shorthand : Shorthand) (manner : Manner) (char : Char) : Bool :=
  match shorthand, manner.dialect with
  | .digit, _ => isDigit char
  | .word, .plain => isWordPlain char
  | .word, .extended => isWordWide char
  | .space, .plain => if manner.ascii then isWhiteSpace char else isBlank char
  | .space, .extended => isWhiteSpace char
  | .letter, _ => isLetter char
  | .uppercase, _ => isUppercase char
  | .lowercase, _ => isLowercase char
  | .number, _ => isNumber char

/-- Whether a character belongs to a shorthand. -/
def Shorthand.holds (shorthand : Shorthand) (manner : Manner) (char : Char) : Bool :=
  (!manner.ascii || char.toNat < 128) && shorthand.holdsWide manner char

/-- Whether a shorthand is about the case of a letter. -/
def Shorthand.isCaseBound : Shorthand → Bool
  | .uppercase | .lowercase => true
  | _ => false

/-- Whether a character belongs to a shorthand that stands alone and is tested without regard to
case: a shorthand about case then holds for letters of either case, beyond ASCII too. -/
def Shorthand.holdsLoose (shorthand : Shorthand) (manner : Manner) (char : Char) : Bool :=
  if shorthand.isCaseBound then isCased char else shorthand.holds manner char

/-- Whether a character counts as part of a word. -/
def isWord (manner : Manner) (char : Char) : Bool := Shorthand.word.holds manner char

/-- The code points that a character is compared as. -/
def Manner.codes (manner : Manner) (char : Char) : List Nat :=
  if !manner.ignoreCase then [char.toNat]
  else if manner.ascii then variantsAscii char.toNat
  else
    match manner.dialect with
    | .extended => variants char.toNat
    | .plain =>
      (lowercasePartners (lowered char.toNat)).flatMap fun letter => letter :: capitalsOf letter

/-- Whether two characters are the same letter when one is matched against the other. -/
def Manner.same (manner : Manner) (first second : Char) : Bool :=
  first == second ||
    (manner.ignoreCase &&
      match manner.ascii, manner.dialect with
      | true, _ => loweredAscii first.toNat == loweredAscii second.toNat
      | false, .plain => lowered first.toNat == lowered second.toNat
      | false, .extended => (variants first.toNat).contains second.toNat)

/-- A set of characters. Codes may be any code points, those included that no character has. -/
inductive CharSet
  /-- The characters with one of these codes. -/
  | codes (members : List Nat)
  | range (first last : Nat)
  | shorthand (kind : Shorthand)
  /-- Every character but the line break. -/
  | inline
  | all
  | union (first second : CharSet)
  /-- The characters that are not in a set. -/
  | except (left : CharSet)
deriving Repr, DecidableEq, Inhabited

namespace CharSet

/-- The set of one character. -/
def single (code : Nat) : CharSet := .codes [code]

/-- The set of one character. -/
def ofChar (char : Char) : CharSet := .single char.toNat

/-- Whether a character that is compared as the given codes is in a set. -/
def holds (manner : Manner) (codes : List Nat) : CharSet → Bool
  | .codes members => codes.any members.contains
  | .range first last => codes.any fun code => first ≤ code && code ≤ last
  | .shorthand kind => codes.any fun code => kind.holds manner (Char.ofNat code)
  | .inline => !codes.contains '\n'.toNat
  | .all => true
  | .union first second => first.holds manner codes || second.holds manner codes
  | .except left => !left.holds manner codes

/-- The sets that a union is made of. -/
def parts : CharSet → List CharSet
  | .union first second => first.parts ++ second.parts
  | other => [other]

/-- The union of sets. -/
def ofParts : List CharSet → CharSet
  | [] => .codes []
  | [last] => last
  | first :: rest => .union first (ofParts rest)

/-- The code of a set of one character. -/
def code? : CharSet → Option Nat
  | .codes [code] => some code
  | _ => none

/-- The shorthand that a set is, and whether it is the complement of one. -/
def shorthand? : CharSet → Option (Shorthand × Bool)
  | .shorthand kind => some (kind, false)
  | .except (.shorthand kind) => some (kind, true)
  | _ => none

/-- The characters that are not in a set. -/
def complement : CharSet → CharSet
  | .except left => left
  | other => .except other

/-- Whether some shorthand is listed together with its complement. -/
def exhausts (sets : List CharSet) : Bool :=
  sets.any fun set => set.shorthand?.isSome && sets.contains set.complement

/-- The set of a class. In the extended dialect a class with a shorthand and its complement holds
every character, also where the class is negated. -/
def ofClass (dialect : Dialect) (negated : Bool) (members : List CharSet) : CharSet :=
  if dialect == .extended && exhausts members then .all
  else if negated then (ofParts members).complement
  else ofParts members

end CharSet

/-- A set of characters and the manner in which a character is compared with it. -/
structure CharTest where
  set : CharSet
  manner : Manner
deriving Repr, DecidableEq, Inhabited

/-- Whether a character passes a test. -/
def CharTest.holds (test : CharTest) (char : Char) : Bool :=
  match test.set.shorthand?, test.manner.ignoreCase with
  | some (kind, negated), true => kind.holdsLoose test.manner char != negated
  | _, _ => test.set.holds test.manner (test.manner.codes char)

/-! ## Complements and unions -/

namespace CharSet

variable (manner : Manner) (codes : List Nat)

@[simp] theorem holds_union (first second : CharSet) :
    (CharSet.union first second).holds manner codes =
      (first.holds manner codes || second.holds manner codes) := rfl

@[simp] theorem holds_except (left : CharSet) :
    (CharSet.except left).holds manner codes = !left.holds manner codes := rfl

@[simp] theorem holds_ofParts (sets : List CharSet) :
    (ofParts sets).holds manner codes = sets.any (·.holds manner codes) := by
  induction sets with
  | nil => simp [ofParts, holds]
  | cons first rest ih =>
    cases rest with
    | nil => simp [ofParts]
    | cons second more => simp [ofParts, ih]

/-- A set holds what one of its parts holds. -/
theorem holds_parts (set : CharSet) :
    set.parts.any (·.holds manner codes) = set.holds manner codes := by
  induction set with
  | union first second ihFirst ihSecond => simp [parts, List.any_append, ihFirst, ihSecond]
  | _ => simp [parts]

end CharSet

end Rulebook.Pattern
