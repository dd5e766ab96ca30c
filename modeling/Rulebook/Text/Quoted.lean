import Rulebook.Text.Property

/-!
# Quoted text

A text in quotes, so that it can stand inside a message: the quote is `'`, or `"` when the text
holds `'` and no `"`. The quote itself and the backslash are escaped by a backslash, line feed,
tab and carriage return by a letter, and any other character without a printed form by its code
in lowercase hexadecimal digits, two, four or eight of them. A byte string is quoted in the same
way after a `b`, and everything outside printable ASCII is escaped.
-/

namespace Rulebook.Text

/-- The quote for a text: `"` only if that avoids escapes. -/
def quoteFor (text : List Char) : Char :=
  if text.contains '\'' && !text.contains '"' then '"' else '\''

/-- `count` lowercase hexadecimal digits of a number, the highest first. -/
def hexDigits : Nat → Nat → List Char
  | 0, _ => []
  | count + 1, number => hexDigits count (number / 16) ++ [Nat.digitChar (number % 16)]

/-- The escape of a character by its code, in the shortest of the three forms. -/
def codeEscape (char : Char) : List Char :=
  let code := char.toNat
  if code < 0x100 then '\\' :: 'x' :: hexDigits 2 code
  else if code < 0x10000 then '\\' :: 'u' :: hexDigits 4 code
  else '\\' :: 'U' :: hexDigits 8 code

/-- How one character is written between the given quotes; `printable` says which characters
stand as they are. -/
def escaped (printable : Char → Bool) (quote char : Char) : List Char :=
  if char = quote ∨ char = '\\' then ['\\', char]
  else if char = '\n' then ['\\', 'n']
  else if char = '\t' then ['\\', 't']
  else if char = '\r' then ['\\', 'r']
  else if printable char then [char]
  else codeEscape char

/-- A text between quotes. -/
def quotedChars (text : List Char) : List Char :=
  let quote := quoteFor text
  quote :: (text.flatMap (escaped isPrintable quote) ++ [quote])

/-- A text between quotes, as a string. -/
def quoted (text : String) : String := String.ofList (quotedChars text.toList)

/-- Printable ASCII. -/
def isPlainAscii (char : Char) : Bool := 0x20 ≤ char.toNat && char.toNat ≤ 0x7E

/-- A byte string, given by one character for each byte, between quotes after a `b`. -/
def quotedBytes (bytes : String) : String :=
  let chars := bytes.toList
  let quote := quoteFor chars
  String.ofList ('b' :: quote :: (chars.flatMap (escaped isPlainAscii quote) ++ [quote]))

end Rulebook.Text
