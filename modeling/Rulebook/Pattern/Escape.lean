import Rulebook.Pattern.Reading

/-!
# Escapes and classes

What a backslash means, inside a class and outside, and how the members of a class are read. Both
dialects have octal and hexadecimal codes, control letters and shorthands; the extended one has
properties too. An unknown letter behind a backslash is refused, while any other character stands
for itself.
-/

namespace Rulebook.Pattern

open Rulebook.Text

/-- A digit in base eight. -/
def isOctal (char : Char) : Bool := '0' ≤ char && char ≤ '7'

/-- A digit in base sixteen. -/
def isHex (char : Char) : Bool :=
  ('0' ≤ char && char ≤ '9') || ('a' ≤ char && char ≤ 'f') || ('A' ≤ char && char ≤ 'F')

/-- A digit of ASCII. -/
def isAsciiDigit (char : Char) : Bool := '0' ≤ char && char ≤ '9'

/-- A letter of ASCII. -/
def isAsciiLetter (char : Char) : Bool :=
  ('a' ≤ char && char ≤ 'z') || ('A' ≤ char && char ≤ 'Z')

/-- The value of a digit in bases up to sixteen. -/
def digitValue (char : Char) : Nat :=
  if isAsciiDigit char then char.toNat - '0'.toNat
  else if 'a' ≤ char then char.toNat - 'a'.toNat + 10
  else char.toNat - 'A'.toNat + 10

/-- The number that digits name in a base. -/
def numberOf (base : Nat) (digits : List Char) : Nat :=
  digits.foldl (fun number digit => number * base + digitValue digit) 0

/-- A code point given by exactly `count` hexadecimal digits. There are none from `0x110000` on. -/
def readHex (count : Nat) : Read Nat := do
  let digits ← Read.takeWhile isHex count
  let code := numberOf 16 digits
  if digits.length = count ∧ code < 0x110000 then return code else Read.refuse

/-- A code point given by an octal digit and up to two more. -/
def readOctal (first : Char) : Read Nat := do
  let digits ← Read.takeWhile isOctal 2
  return numberOf 8 (first :: digits)

/-- The letters behind a backslash that name a control character. -/
def controlOf : Char → Option Char
  | 'a' => some (Char.ofNat 7)
  | 't' => some '\t'
  | 'n' => some '\n'
  | 'v' => some (Char.ofNat 11)
  | 'f' => some (Char.ofNat 12)
  | 'r' => some '\r'
  | _ => none

/-- The letters behind a backslash that name a set of characters. -/
def shorthandOf : Char → Option CharSet
  | 'd' => some (.shorthand .digit)
  | 'D' => some (.except (.shorthand .digit))
  | 'w' => some (.shorthand .word)
  | 'W' => some (.except (.shorthand .word))
  | 's' => some (.shorthand .space)
  | 'S' => some (.except (.shorthand .space))
  | _ => none

/-- The property with a name, spelled without regard to case, spaces, hyphens and low lines. -/
def propertyOf (name : List Char) : Option Shorthand :=
  let letters := name.filter fun char => !(char == ' ' || char == '_' || char == '-')
  match String.ofList (letters.map Char.toLower) with
  | "l" | "letter" => some .letter
  | "lu" | "uppercaseletter" => some .uppercase
  | "ll" | "lowercaseletter" => some .lowercase
  | "n" | "number" => some .number
  | "nd" | "decimalnumber" | "digit" => some .digit
  | _ => none

/-- Whether a character may stand in the name of a property. -/
def isPropertyName (char : Char) : Bool :=
  isAsciiLetter char || isAsciiDigit char || [' ', '&', '_', '-', '.'].contains char

/-- The name of a property and whether its complement is meant: a letter, or a name in braces. -/
def readPropertyName : Read (Option (List Char × Bool)) := do
  match ← Read.takeIf fun char => ['\x7b', 'C', 'L', 'M', 'N', 'P', 'S', 'Z'].contains char with
  | none => return none
  | some '\x7b' =>
    let inverted ← Read.take '^'
    let name ← Read.takeAll isPropertyName
    if ← Read.take '\x7d' then return some (name, inverted) else return none
  | some letter => return some ([letter], false)

/-- A property behind the letter `p`, or its complement behind `P`; where no name of a property
follows, that letter itself. -/
def readProperty (letter : Char) : Read CharSet := do
  match ← Read.attempt readPropertyName with
  | none => return .ofChar letter
  | some (name, inverted) =>
    match propertyOf name with
    | none => Read.refuse
    | some kind =>
      if (letter == 'P') != inverted then return .except (.shorthand kind)
      else return .shorthand kind

/-- What a backslash and a character mean that mean the same inside and outside a class. The case
of a letter never matters to a shorthand. -/
def readCommonEscape (char : Char) : Read CharTest := do
  let manner ← Read.manner
  match shorthandOf char, controlOf char with
  | some set, _ => return ⟨set, manner.strict⟩
  | none, some control => return ⟨.ofChar control, manner⟩
  | none, none =>
    if char = 'x' then return ⟨.single (← readHex 2), manner⟩
    else if char = 'u' then return ⟨.single (← readHex 4), manner⟩
    else if char = 'U' then return ⟨.single (← readHex 8), manner⟩
    else if (char = 'p' ∨ char = 'P') ∧ manner.dialect = .extended then
      return ⟨← readProperty char, manner⟩
    else if isAsciiLetter char then Read.refuse
    else return ⟨.ofChar char, manner⟩

/-! ## Classes -/

/-- A member of a class that begins with a backslash. -/
def readClassEscape : Read CharSet := do
  let char ← Read.next
  if char = 'b' then return .single 8
  else if isAsciiDigit char then
    if isOctal char then
      let member ← readOctal char
      if (← Read.dialect) = .plain ∧ 255 < member then Read.refuse
      else return .single member
    else Read.refuse
  else return (← readCommonEscape char).set

/-- One end of a range, or a member that stands alone. -/
def readClassItem : Read CharSet := do
  let char ← Read.next
  if char = '\\' then readClassEscape else return .ofChar char

/-- What follows a hyphen behind the member `start`: the end of a range or something that makes
the hyphen a member. The answer holds the members, and whether the class ended here. -/
def readRange (start : CharSet) : Read (List CharSet × Bool) := do
  let plain := (← Read.dialect) == .plain
  if (← Read.peek) = some ']' then
    if plain then Read.expect ']'
    return ([start, .ofChar '-'], plain)
  else
    let stop ← readClassItem
    match start.code?, stop.code? with
    | some first, some last =>
      if last < first then Read.refuse
      else if first = last then return ([start], false)
      else return ([.range first last], false)
    | _, _ => if plain then Read.refuse else return ([start, .ofChar '-', stop], false)

/-- Whether a hyphen behind a member may begin a range. In the extended dialect it cannot behind a
shorthand, while the plain dialect goes on and refuses that range. -/
def mayBeginRange (dialect : Dialect) (member : CharSet) : Bool :=
  member.code?.isSome || dialect == .plain

/-- The members of a class up to its closing bracket, which is a member where it comes first. -/
def readClassItems : Nat → List CharSet → Read (List CharSet)
  | 0, _ => Read.refuse
  | fuel + 1, items => do
    if ← Read.takeWhere (!items.isEmpty) ']' then return items
    else
      let start ← readClassItem
      if ← Read.takeWhere (mayBeginRange (← Read.dialect) start) '-' then
        let (members, ended) ← readRange start
        if ended then return items ++ members
        else readClassItems fuel (items ++ members)
      else readClassItems fuel (items ++ [start])

/-- A class behind its opening bracket. -/
def readClass : Read Expr := Read.verbatim do
  let manner ← Read.manner
  let negated ← Read.take '^'
  let members ← readClassItems ((← get).rest.length + 1) []
  return .one ⟨.ofClass manner.dialect negated members, manner⟩

/-! ## Escapes outside classes -/

/-- A test for one code point. -/
def readSingle (code : Nat) : Read Expr := do
  return .one ⟨.single code, ← Read.manner⟩

/-- A reference to a group by its number. The plain dialect wants the group to be closed by now,
and before any look-behind; the extended one only that it is not open and is there in the end. -/
def readReference (index : Nat) : Read Expr := do
  let reading ← get
  if index ∈ reading.opened then Read.refuse
  else if reading.dialect = .plain ∧
      (reading.groupsBefore.getD reading.groupCount) < index then Read.refuse
  else
    set { reading with wanted := max reading.wanted index }
    return .again (← Read.manner) index

/-- A backslash and a digit from one on: a group of one or two digits, or a character given by
three octal digits. -/
def readNumeric (first : Char) : Read Expr := do
  match ← Read.takeIf isAsciiDigit with
  | none => readReference (numberOf 10 [first])
  | some second =>
    let third ←
      if isOctal first && isOctal second then Read.takeIf isOctal else pure none
    match third with
    | none => readReference (numberOf 10 [first, second])
    | some third =>
      let code := numberOf 8 [first, second, third]
      match ← Read.manner with
      | ⟨.plain, _, _⟩ => if 255 < code then Read.refuse else readSingle code
      | ⟨.extended, _, ascii⟩ => readSingle (if ascii then code % 0x100 else code)

/-- An anchor and whether it may be repeated. -/
def anchored (condition : Anchor) : Read (Expr × Bool) := do
  return (.assert condition, (← Read.dialect) == .extended)

/-- What a backslash outside a class means, and whether it may be repeated. -/
def readEscape : Read (Expr × Bool) := do
  let char ← Read.verbatim Read.next
  let manner ← Read.manner
  if char = 'A' then anchored .textStart
  else if char = 'Z' then anchored .textEnd
  else if char = 'b' then anchored (.wordEdge manner true)
  else if char = 'B' then anchored (.wordEdge manner false)
  else if char = 'K' ∧ manner.dialect = .extended then return (.keep, true)
  else if char = '0' then return (← readSingle (← readOctal char), true)
  else if isAsciiDigit char then return (← readNumeric char, true)
  else return (.one (← readCommonEscape char), true)

end Rulebook.Pattern
