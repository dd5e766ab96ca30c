/-!
# Decimal numbers

A number with a fraction is kept as the decimal that was written, a sign before
`digits / 10 ^ scale`, so no digit is lost. Its spelling drops the zeros that carry no value, keeps
one digit after the point, and leaves positional notation below `10 ^ -4` and from `10 ^ 16` on.
Zero keeps its sign in the spelling, but not as a number. A decimal names a number of 53 binary
digits, which differs from what is written only if that is whole and larger.
-/

namespace Rulebook.Text

/-- The number `digits / 10 ^ scale`, or what is as far below zero. -/
structure Decimal where
  negative : Bool
  digits : Nat
  scale : Nat
deriving Repr, DecidableEq, Inhabited

namespace Decimal

/-- A whole number as a decimal. -/
def ofInt (value : Int) : Decimal := ⟨value < 0, value.natAbs, 0⟩

/-- The decimal without its point. -/
def coefficient (number : Decimal) : Int :=
  if number.negative then -number.digits else number.digits

/-- Whether two decimals are the same number: `1.50` and `1.5` are. -/
def sameNumber (first second : Decimal) : Bool :=
  first.coefficient * Nat.pow 10 second.scale == second.coefficient * Nat.pow 10 first.scale

/-- Takes zeros off the end of the fraction. -/
def trim : (scale : Nat) → Nat → Nat × Nat
  | 0, digits => (digits, 0)
  | scale + 1, digits =>
    if digits % 10 = 0 then trim scale (digits / 10) else (digits, scale + 1)

/-- The one decimal that stands for all that are the same number. -/
def canonical (number : Decimal) : Decimal :=
  let (digits, scale) := trim number.scale number.digits
  ⟨number.negative && digits != 0, digits, scale⟩

/-- The nearest number that is 53 binary digits and zeros behind them; of two, the even one. -/
def nearest (number : Nat) : Nat :=
  let unit := Nat.pow 2 (number.log2 - 52)
  let count := number / unit
  let rest := 2 * (number % unit)
  (if unit < rest ∨ (rest = unit ∧ count % 2 = 1) then count + 1 else count) * unit

/-- A number of at most 53 binary digits is its own nearest. -/
theorem nearest_of_log2_lt {number : Nat} (small : number.log2 < 53) : nearest number = number := by
  have unit : number.log2 - 52 = 0 := by omega
  simp [nearest, unit, Nat.mod_one]

/-- The number that a decimal names, in canonical form. -/
def exact (number : Decimal) : Decimal :=
  let canonical := number.canonical
  if canonical.scale = 0 then { canonical with digits := nearest canonical.digits } else canonical

/-- The significant digits of a natural number, without zeros at the end. -/
def significant (digits : List Char) : List Char :=
  (digits.reverse.dropWhile (· == '0')).reverse

/-- The exponent in scientific notation: a sign and at least two digits. -/
def exponentText (exponent : Int) : List Char :=
  let digits := (toString exponent.natAbs).toList
  (if exponent < 0 then '-' else '+') ::
    (if digits.length < 2 then '0' :: digits else digits)

/-- The digits `d₁ d₂ …` of `0.d₁ d₂ … × 10 ^ point`, written out. -/
def digitsText (digits : List Char) (point : Int) : List Char :=
  if -4 < point ∧ point ≤ 0 then
    '0' :: '.' :: (List.replicate (-point).toNat '0' ++ digits)
  else if 0 < point ∧ point ≤ 16 then
    let whole := point.toNat
    if digits.length ≤ whole then
      digits ++ List.replicate (whole - digits.length) '0' ++ ['.', '0']
    else digits.take whole ++ '.' :: digits.drop whole
  else
    digits.take 1 ++ (if digits.length ≤ 1 then [] else '.' :: digits.drop 1) ++
      'e' :: exponentText (point - 1)

/-- The spelling of a decimal: the fewest digits that name it, with a point or an exponent. -/
def spelling (number : Decimal) : String :=
  let sign := if number.negative then ['-'] else []
  if number.digits = 0 then String.ofList (sign ++ ['0', '.', '0']) else
  let all := (toString number.digits).toList
  String.ofList (sign ++ digitsText (significant all) ((all.length : Int) - number.scale))

end Decimal

end Rulebook.Text
