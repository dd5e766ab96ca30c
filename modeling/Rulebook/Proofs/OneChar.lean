import Rulebook.Pattern.Compiled

/-!
# Patterns for one character

Patterns that take one character of a class, and nothing but that character. A test of one character
at the beginning of a text is such a pattern; the extended dialect looks ahead for the character
before it asks where the text begins.
-/

namespace Rulebook.Pattern

/-- A pattern over text takes one character of a class and nothing else. -/
structure TakesOne (pattern : Pattern) (accepts : Char → Bool) : Prop where
  text : pattern.binary = false
  takes : ∀ char rest, accepts char = true →
    ∃ found, pattern.match? (char :: rest) = some found ∧ found.text = [char]
  skips : ∀ char rest, accepts char = false → pattern.match? (char :: rest) = none

section Place

variable {pattern : Pattern} {accepts : Char → Bool} {text : List Char} {place : Nat} {char : Char}
  (htakes : pattern.TakesOne accepts) (hchar : text[place]? = some char)

include htakes hchar

theorem TakesOne.takes_at (haccepts : accepts char = true) :
    ∃ found, pattern.match? (text.drop place) = some found ∧ found.text = [char] := by
  obtain ⟨hplace, rfl⟩ := List.getElem?_eq_some_iff.mp hchar
  rw [List.drop_eq_getElem_cons hplace]
  exact htakes.takes _ _ haccepts

theorem TakesOne.skips_at (haccepts : accepts char = false) :
    pattern.match? (text.drop place) = none := by
  obtain ⟨hplace, rfl⟩ := List.getElem?_eq_some_iff.mp hchar
  rw [List.drop_eq_getElem_cons hplace]
  exact htakes.skips _ _ haccepts

end Place

/-- A test of one character at the beginning of a text, as the extended dialect has it. -/
def Expr.oneAtStart (test : CharTest) : Expr :=
  .seq (.assert (.before test)) (.seq (.assert .textStart) (.one test))

open Extended

theorem Expr.walk_oneAtStart {test : CharTest} {setting : Setting} {char : Char} {walk : Walk}
    (hplace : walk.place = 0) (hchar : setting.text[0]? = some char) (next : Next) :
    (oneAtStart test).walk setting false walk next =
      if test.holds char = true then next { walk with place := 1 } else return none := by
  simp only [oneAtStart, Expr.walk_seq, Expr.walk_assert, Expr.walk_one, Bool.false_eq_true,
    if_false, Anchor.holds, Subject.step?, hplace, hchar, Option.any_some]
  cases test.holds char <;> rfl

theorem takesOne_oneAtStart {pattern : Pattern} {test : CharTest}
    (htext : pattern.binary = false) (hdialect : pattern.dialect = .extended)
    (hexpr : pattern.expr = .oneAtStart test) : pattern.TakesOne test.holds := by
  have hwalk : ∀ char rest recalled, (Expr.oneAtStart test).walk
      ⟨(char :: rest).toArray, recalled⟩ false (Walk.start pattern.groupCount)
        (fun reached => return some reached) =
      if test.holds char = true then return some { Walk.start pattern.groupCount with place := 1 }
      else return none :=
    fun _ _ _ => Expr.walk_oneAtStart rfl rfl _
  refine ⟨htext, ?_, ?_⟩
  · intro char rest haccepts
    rw [match?, hdialect, hexpr]
    simp only [Expr.matchExtended?, hwalk, haccepts, if_true]
    refine ⟨_, rfl, ?_⟩
    simp [Match.ofBorders, Subject.slice, Walk.start]
  · intro char rest haccepts
    rw [match?, hdialect, hexpr]
    simp only [Expr.matchExtended?, hwalk, haccepts]
    rfl

/-- With regard to case, a test of one character holds of that character alone. -/
theorem CharTest.holds_ofChar {manner : Manner} (hcase : manner.ignoreCase = false)
    (expected char : Char) :
    CharTest.holds ⟨.ofChar expected, manner⟩ char = (char == expected) := by
  rw [Bool.eq_iff_iff, beq_iff_eq, ← Char.toNat_inj]
  simp [CharTest.holds, CharSet.ofChar, CharSet.single, CharSet.shorthand?, CharSet.holds,
    Manner.codes, hcase]

theorem takesOne_char {pattern : Pattern} {expected : Char} {manner : Manner}
    (htext : pattern.binary = false) (hdialect : pattern.dialect = .extended)
    (hcase : manner.ignoreCase = false)
    (hexpr : pattern.expr = .oneAtStart ⟨.ofChar expected, manner⟩) :
    pattern.TakesOne (· == expected) := by
  have htest : CharTest.holds ⟨.ofChar expected, manner⟩ = (· == expected) := by
    funext char
    exact CharTest.holds_ofChar hcase expected char
  rw [← htest]
  exact takesOne_oneAtStart htext hdialect hexpr

/-- The pattern for a single character at the beginning of a text. -/
def ofChar (source : String) (char : Char) : Pattern where
  dialect := .extended
  source
  binary := false
  given := .ofLetters []
  flags := .ofLetters []
  expr := .oneAtStart ⟨.ofChar char, .ofFlags .extended (.ofLetters [])⟩
  groupCount := 0
  names := []

theorem takesOne_ofChar (source : String) (char : Char) :
    (ofChar source char).TakesOne (· == char) :=
  takesOne_char rfl rfl rfl rfl

end Rulebook.Pattern
