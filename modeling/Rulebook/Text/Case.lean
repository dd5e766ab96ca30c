import Rulebook.Text.Property

/-!
# Letters that differ only in case

Two relations are in use. `lowered` maps a letter to one lowercase letter; the few letters whose
lowercase forms stay apart though their capitals agree are listed in `sharedCapital`. `variants`
lists all letters with the same simple case folding, where the dotted and the dotless *i* each
agree with the one *I* or *i* that looks like its partner. Within ASCII both agree.
-/

namespace Rulebook.Text

/-- A run of capitals, each `offset` code points before its lowercase letter. -/
structure CaseRun where
  capitals : Run
  offset : Int
deriving Repr, DecidableEq, Inhabited

/-- Capitals and the way to their lowercase letters. -/
def capitalRuns : List CaseRun :=
  [⟨⟨0x0041, 0x005A, 1⟩, 32⟩, ⟨⟨0x00C0, 0x00D6, 1⟩, 32⟩, ⟨⟨0x00D8, 0x00DE, 1⟩, 32⟩,
   ⟨⟨0x0100, 0x012E, 2⟩, 1⟩, ⟨⟨0x0130, 0x0130, 1⟩, -199⟩, ⟨⟨0x0132, 0x0136, 2⟩, 1⟩,
   ⟨⟨0x0139, 0x0147, 2⟩, 1⟩, ⟨⟨0x014A, 0x0176, 2⟩, 1⟩, ⟨⟨0x0178, 0x0178, 1⟩, -121⟩,
   ⟨⟨0x0179, 0x017D, 2⟩, 1⟩, ⟨⟨0x0181, 0x0181, 1⟩, 210⟩, ⟨⟨0x0182, 0x0184, 2⟩, 1⟩,
   ⟨⟨0x0186, 0x0186, 1⟩, 206⟩, ⟨⟨0x0187, 0x0187, 1⟩, 1⟩, ⟨⟨0x0189, 0x018A, 1⟩, 205⟩,
   ⟨⟨0x018B, 0x018B, 1⟩, 1⟩, ⟨⟨0x018E, 0x018E, 1⟩, 79⟩, ⟨⟨0x018F, 0x018F, 1⟩, 202⟩,
   ⟨⟨0x0190, 0x0190, 1⟩, 203⟩, ⟨⟨0x0191, 0x0191, 1⟩, 1⟩, ⟨⟨0x0193, 0x0193, 1⟩, 205⟩,
   ⟨⟨0x0194, 0x0194, 1⟩, 207⟩, ⟨⟨0x0196, 0x0196, 1⟩, 211⟩, ⟨⟨0x0197, 0x0197, 1⟩, 209⟩,
   ⟨⟨0x0198, 0x0198, 1⟩, 1⟩, ⟨⟨0x019C, 0x019C, 1⟩, 211⟩, ⟨⟨0x019D, 0x019D, 1⟩, 213⟩,
   ⟨⟨0x019F, 0x019F, 1⟩, 214⟩, ⟨⟨0x01A0, 0x01A4, 2⟩, 1⟩, ⟨⟨0x01A6, 0x01A6, 1⟩, 218⟩,
   ⟨⟨0x01A7, 0x01A7, 1⟩, 1⟩, ⟨⟨0x01A9, 0x01A9, 1⟩, 218⟩, ⟨⟨0x01AC, 0x01AC, 1⟩, 1⟩,
   ⟨⟨0x01AE, 0x01AE, 1⟩, 218⟩, ⟨⟨0x01AF, 0x01AF, 1⟩, 1⟩, ⟨⟨0x01B1, 0x01B2, 1⟩, 217⟩,
   ⟨⟨0x01B3, 0x01B5, 2⟩, 1⟩, ⟨⟨0x01B7, 0x01B7, 1⟩, 219⟩, ⟨⟨0x01B8, 0x01B8, 1⟩, 1⟩,
   ⟨⟨0x01BC, 0x01BC, 1⟩, 1⟩, ⟨⟨0x01C4, 0x01C4, 1⟩, 2⟩, ⟨⟨0x01C5, 0x01C5, 1⟩, 1⟩,
   ⟨⟨0x01C7, 0x01C7, 1⟩, 2⟩, ⟨⟨0x01C8, 0x01C8, 1⟩, 1⟩, ⟨⟨0x01CA, 0x01CA, 1⟩, 2⟩,
   ⟨⟨0x01CB, 0x01DB, 2⟩, 1⟩, ⟨⟨0x01DE, 0x01EE, 2⟩, 1⟩, ⟨⟨0x01F1, 0x01F1, 1⟩, 2⟩,
   ⟨⟨0x01F2, 0x01F4, 2⟩, 1⟩, ⟨⟨0x01F6, 0x01F6, 1⟩, -97⟩, ⟨⟨0x01F7, 0x01F7, 1⟩, -56⟩,
   ⟨⟨0x01F8, 0x021E, 2⟩, 1⟩, ⟨⟨0x0220, 0x0220, 1⟩, -130⟩, ⟨⟨0x0222, 0x0232, 2⟩, 1⟩,
   ⟨⟨0x023A, 0x023A, 1⟩, 10795⟩, ⟨⟨0x023B, 0x023B, 1⟩, 1⟩, ⟨⟨0x023D, 0x023D, 1⟩, -163⟩,
   ⟨⟨0x023E, 0x023E, 1⟩, 10792⟩, ⟨⟨0x0241, 0x0241, 1⟩, 1⟩, ⟨⟨0x0243, 0x0243, 1⟩, -195⟩,
   ⟨⟨0x0244, 0x0244, 1⟩, 69⟩, ⟨⟨0x0245, 0x0245, 1⟩, 71⟩, ⟨⟨0x0246, 0x024E, 2⟩, 1⟩,
   ⟨⟨0x0370, 0x0372, 2⟩, 1⟩, ⟨⟨0x0376, 0x0376, 1⟩, 1⟩, ⟨⟨0x037F, 0x037F, 1⟩, 116⟩,
   ⟨⟨0x0386, 0x0386, 1⟩, 38⟩, ⟨⟨0x0388, 0x038A, 1⟩, 37⟩, ⟨⟨0x038C, 0x038C, 1⟩, 64⟩,
   ⟨⟨0x038E, 0x038F, 1⟩, 63⟩, ⟨⟨0x0391, 0x03A1, 1⟩, 32⟩, ⟨⟨0x03A3, 0x03AB, 1⟩, 32⟩,
   ⟨⟨0x03CF, 0x03CF, 1⟩, 8⟩, ⟨⟨0x03D8, 0x03EE, 2⟩, 1⟩, ⟨⟨0x03F4, 0x03F4, 1⟩, -60⟩,
   ⟨⟨0x03F7, 0x03F7, 1⟩, 1⟩, ⟨⟨0x03F9, 0x03F9, 1⟩, -7⟩, ⟨⟨0x03FA, 0x03FA, 1⟩, 1⟩,
   ⟨⟨0x03FD, 0x03FF, 1⟩, -130⟩, ⟨⟨0x0400, 0x040F, 1⟩, 80⟩, ⟨⟨0x0410, 0x042F, 1⟩, 32⟩,
   ⟨⟨0x0460, 0x0480, 2⟩, 1⟩, ⟨⟨0x048A, 0x04BE, 2⟩, 1⟩, ⟨⟨0x04C0, 0x04C0, 1⟩, 15⟩,
   ⟨⟨0x04C1, 0x04CD, 2⟩, 1⟩, ⟨⟨0x04D0, 0x052E, 2⟩, 1⟩, ⟨⟨0x0531, 0x0556, 1⟩, 48⟩,
   ⟨⟨0x2126, 0x2126, 1⟩, -7517⟩, ⟨⟨0x212A, 0x212A, 1⟩, -8383⟩, ⟨⟨0x212B, 0x212B, 1⟩, -8262⟩,
   ⟨⟨0x2132, 0x2132, 1⟩, 28⟩, ⟨⟨0xFF21, 0xFF3A, 1⟩, 32⟩]

/-- Letters that fold to another lowercase letter than their own. -/
def foldedApart : List (Nat × Nat) :=
  [(0x00B5, 0x03BC), (0x017F, 0x0073), (0x0345, 0x03B9), (0x03C2, 0x03C3), (0x03D0, 0x03B2),
   (0x03D1, 0x03B8), (0x03D5, 0x03C6), (0x03D6, 0x03C0), (0x03F0, 0x03BA), (0x03F1, 0x03C1),
   (0x03F5, 0x03B5)]

/-- Lowercase letters that share a capital. -/
def sharedCapital : List (Nat × Nat) := (0x0069, 0x0131) :: foldedApart

/-- The lowercase form of a capital; other characters are their own. -/
def lowered (code : Nat) : Nat :=
  match capitalRuns.find? (fun run => run.capitals.holds code) with
  | some run => (code + run.offset).toNat
  | none => code

/-- The capitals whose lowercase form is the given letter. -/
def capitalsOf (code : Nat) : List Nat :=
  capitalRuns.filterMap fun run =>
    let capital := ((code : Int) - run.offset).toNat
    if run.capitals.holds capital then some capital else none

/-- A lowercase letter and those that share a capital with it. -/
def lowercasePartners (code : Nat) : List Nat :=
  code :: sharedCapital.filterMap fun (first, second) =>
    if first = code then some second else if second = code then some first else none

/-- The simple case folding of a letter. The dotted capital *I* keeps to itself. -/
def folded (code : Nat) : Nat :=
  if code = 0x0130 then code
  else
    match foldedApart.lookup code with
    | some target => target
    | none => lowered code

/-- The letters that the dotted and the dotless *i* agree with beyond their folding. -/
def dottedPartners (code : Nat) : List Nat :=
  if code = 0x0049 then [0x0131] else if code = 0x0131 then [0x0049]
  else if code = 0x0069 then [0x0130] else if code = 0x0130 then [0x0069] else []

/-- All code points that differ from the given one at most in case. -/
def variants (code : Nat) : List Nat :=
  let base := folded code
  let capitals := (capitalsOf base).filter (· ≠ 0x0130)
  let apart := foldedApart.filterMap fun (first, second) =>
    if second = base then some first else none
  code :: base :: (capitals ++ apart ++ dottedPartners code)

/-- The lowercase form of an ASCII capital; other characters are their own. -/
def loweredAscii (code : Nat) : Nat :=
  if 0x41 ≤ code ∧ code ≤ 0x5A then code + 0x20 else code

/-- The ASCII letters that differ from the given one at most in case. -/
def variantsAscii (code : Nat) : List Nat :=
  if 0x41 ≤ code ∧ code ≤ 0x5A then [code, code + 0x20]
  else if 0x61 ≤ code ∧ code ≤ 0x7A then [code, code - 0x20]
  else [code]

end Rulebook.Text
