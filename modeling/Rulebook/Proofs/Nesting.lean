import Mathlib.Data.List.Induction
import Rulebook.Proofs.Tree

/-!
# Nested brackets

Texts of brackets and other characters. What it is for brackets to match is told without a parser:
a text is well nested if it falls into single characters and pairs of brackets around well nested
texts, and it leaves a bracket open if what follows the bracket is well nested. Each text either
leaves some brackets open, or has a first closing bracket that closes nothing.
-/

namespace Rulebook

/-- A kind of brackets. -/
structure Bracket where
  kind : String
  opening : Char
  closing : Char
deriving Repr, DecidableEq

/-- A character is none of the brackets. -/
def Unbracketed (brackets : List Bracket) (char : Char) : Prop :=
  ∀ bracket ∈ brackets, char ≠ bracket.opening ∧ char ≠ bracket.closing

/-- The brackets of a text match and are nested. -/
inductive WellNested (brackets : List Bracket) : List Char → Prop
  | nil : WellNested brackets []
  | plain {char : Char} {rest : List Char} (hchar : Unbracketed brackets char)
      (hrest : WellNested brackets rest) : WellNested brackets (char :: rest)
  | pair {bracket : Bracket} {inside rest : List Char} (hbracket : bracket ∈ brackets)
      (hinside : WellNested brackets inside) (hrest : WellNested brackets rest) :
      WellNested brackets (bracket.opening :: (inside ++ bracket.closing :: rest))

/-- A text leaves brackets open, the innermost first. All others in it match. -/
inductive LeavesOpen (brackets : List Bracket) : List Char → List Bracket → Prop
  | flat {text : List Char} (htext : WellNested brackets text) : LeavesOpen brackets text []
  | deeper {before text : List Char} {bracket : Bracket} {still : List Bracket}
      (hbefore : LeavesOpen brackets before still) (hbracket : bracket ∈ brackets)
      (htext : WellNested brackets text) :
      LeavesOpen brackets (before ++ bracket.opening :: text) (bracket :: still)

/-- The first closing bracket of a text that does not match the innermost bracket still open where
it stands. -/
structure Mismatch (brackets : List Bracket) (text : List Char) (place : Nat) (bracket : Bracket) :
    Prop where
  known : bracket ∈ brackets
  closes : text[place]? = some bracket.closing
  unmatched : ∃ still, LeavesOpen brackets (text.take place) still ∧ still.head? ≠ some bracket

/-- What there is to say about the brackets of a text. -/
inductive Verdict
  | nested
  | mismatch (place : Nat) (bracket : Bracket)
  | unclosed (bracket : Bracket)

/-- A verdict is right about a text. -/
inductive Judged (brackets : List Bracket) (text : List Char) : Verdict → Prop
  | nested (htext : WellNested brackets text) : Judged brackets text .nested
  | mismatch {place : Nat} {bracket : Bracket}
      (hmismatch : Mismatch brackets text place bracket) :
      Judged brackets text (.mismatch place bracket)
  | unclosed {bracket : Bracket} {still : List Bracket}
      (hopen : LeavesOpen brackets text (bracket :: still)) :
      Judged brackets text (.unclosed bracket)

variable {brackets : List Bracket}

/-! ## Matching -/

theorem WellNested.append {first second : List Char} (hfirst : WellNested brackets first)
    (hsecond : WellNested brackets second) : WellNested brackets (first ++ second) := by
  induction hfirst with
  | nil => exact hsecond
  | plain hchar _ ih => exact .plain hchar ih
  | @pair bracket inside rest hbracket hinside _ _ ih =>
      rw [List.cons_append, List.append_assoc, List.cons_append]
      exact .pair hbracket hinside ih

theorem LeavesOpen.append {first second : List Char} {still : List Bracket}
    (hfirst : LeavesOpen brackets first still) (hsecond : WellNested brackets second) :
    LeavesOpen brackets (first ++ second) still := by
  cases hfirst with
  | flat hfirst => exact .flat (hfirst.append hsecond)
  | deeper hbefore hbracket htext =>
      rw [List.append_assoc, List.cons_append]
      exact .deeper hbefore hbracket (htext.append hsecond)

theorem LeavesOpen.close {text : List Char} {bracket : Bracket} {still : List Bracket}
    (hopen : LeavesOpen brackets text (bracket :: still)) :
    LeavesOpen brackets (text ++ [bracket.closing]) still := by
  cases hopen with
  | deeper hbefore hbracket htext =>
      rw [List.append_assoc, List.cons_append]
      exact hbefore.append (.pair hbracket htext .nil)

theorem LeavesOpen.known {text : List Char} {still : List Bracket}
    (hopen : LeavesOpen brackets text still) : ∀ bracket ∈ still, bracket ∈ brackets := by
  induction hopen with
  | flat => nofun
  | deeper _ hbracket _ ih =>
      intro other hother
      rcases List.mem_cons.mp hother with rfl | hother
      · exact hbracket
      · exact ih other hother

theorem Mismatch.append {first : List Char} {place : Nat} {bracket : Bracket}
    (hmismatch : Mismatch brackets first place bracket) (second : List Char) :
    Mismatch brackets (first ++ second) place bracket := by
  obtain ⟨hknown, hcloses, hunmatched⟩ := hmismatch
  obtain ⟨hplace, _⟩ := List.getElem?_eq_some_iff.mp hcloses
  refine ⟨hknown, ?_, ?_⟩
  · rw [List.getElem?_append_left hplace]
    exact hcloses
  · rw [List.take_append_of_le_length (Nat.le_of_lt hplace)]
    exact hunmatched

/-- One more character closes a bracket, opens one, mismatches or leaves everything as it is. -/
theorem LeavesOpen.snoc {text : List Char} {still : List Bracket}
    (hopen : LeavesOpen brackets text still) (char : Char) :
    (∃ after, LeavesOpen brackets (text ++ [char]) after) ∨
      ∃ bracket, Mismatch brackets (text ++ [char]) text.length bracket := by
  -- a closing bracket comes first, since it alone can mismatch
  by_cases hcloses : ∃ bracket ∈ brackets, char = bracket.closing
  · obtain ⟨bracket, hknown, rfl⟩ := hcloses
    by_cases hhead : still.head? = some bracket
    · obtain ⟨outer, rfl⟩ := List.head?_eq_some_iff.mp hhead
      exact Or.inl ⟨outer, hopen.close⟩
    · refine Or.inr ⟨bracket, hknown, by simp, still, ?_, hhead⟩
      rw [List.take_left]
      exact hopen
  · by_cases hopens : ∃ bracket ∈ brackets, char = bracket.opening
    · obtain ⟨bracket, hknown, rfl⟩ := hopens
      exact Or.inl ⟨bracket :: still, .deeper hopen hknown .nil⟩
    · refine Or.inl ⟨still, hopen.append (.plain ?_ .nil)⟩
      exact fun bracket hknown =>
        ⟨fun heq => hopens ⟨bracket, hknown, heq⟩, fun heq => hcloses ⟨bracket, hknown, heq⟩⟩

/-- A text that has no mismatch leaves some brackets open, or none. -/
theorem leavesOpen_or_mismatch (brackets : List Bracket) (text : List Char) :
    (∃ still, LeavesOpen brackets text still) ∨
      ∃ place bracket, Mismatch brackets text place bracket := by
  induction text using List.reverseRecOn with
  | nil => exact Or.inl ⟨[], .flat .nil⟩
  | append_singleton text char ih =>
      rcases ih with ⟨still, hopen⟩ | ⟨place, bracket, hmismatch⟩
      · rcases hopen.snoc char with hafter | ⟨bracket, hmismatch⟩
        · exact Or.inl hafter
        · exact Or.inr ⟨_, bracket, hmismatch⟩
      · exact Or.inr ⟨place, bracket, hmismatch.append [char]⟩

theorem exists_judged (brackets : List Bracket) (text : List Char) :
    ∃ verdict, Judged brackets text verdict := by
  rcases leavesOpen_or_mismatch brackets text with ⟨still, hopen⟩ | ⟨place, bracket, hmismatch⟩
  · cases still with
    | nil =>
        cases hopen with
        | flat htext => exact ⟨_, .nested htext⟩
    | cons bracket still => exact ⟨_, .unclosed hopen⟩
  · exact ⟨_, .mismatch hmismatch⟩

/-! ## Forests -/

/-- A single character under a label, or a pair of brackets with what is between them. -/
inductive Nest
  | leaf (label : String) (char : Char)
  | pair (bracket : Bracket) (inside : List Nest)

namespace Nest

mutual

/-- How a nest is written. -/
def render : Nest → List Char
  | .leaf _ char => [char]
  | .pair bracket inside => bracket.opening :: (renderAll inside ++ [bracket.closing])

/-- How nests side by side are written. -/
def renderAll : List Nest → List Char
  | [] => []
  | nest :: rest => nest.render ++ renderAll rest

end

mutual

/-- The tree that a nest is read as from a cursor on. The span of a pair is that of its opening
bracket. -/
def grown (cursor : Cursor) : Nest → Tree
  | .leaf label char => .leaf ⟨label, [char], some (cursor, cursor.advance [char])⟩
  | .pair bracket inside =>
    .node ⟨bracket.kind, [], some (cursor, cursor.advance [bracket.opening])⟩
      (grownAll (cursor.advance [bracket.opening]) inside)

/-- The trees that nests side by side are read as. -/
def grownAll (cursor : Cursor) : List Nest → List Tree
  | [] => []
  | nest :: rest => nest.grown cursor :: grownAll (cursor.advance nest.render) rest

end

mutual

/-- A nest is made of some brackets and of leaves as told. -/
def Over (brackets : List Bracket) (leaves : String → Char → Prop) : Nest → Prop
  | .leaf label char => leaves label char
  | .pair bracket inside => bracket ∈ brackets ∧ OverAll brackets leaves inside

/-- Nests side by side are made of some brackets and of leaves as told. -/
def OverAll (brackets : List Bracket) (leaves : String → Char → Prop) : List Nest → Prop
  | [] => True
  | nest :: rest => nest.Over brackets leaves ∧ OverAll brackets leaves rest

end

end Nest

/-- A well nested text is how some forest is written. -/
theorem WellNested.exists_forest {leaves : String → Char → Prop} {text : List Char}
    (htext : WellNested brackets text)
    (hleaves : ∀ char ∈ text, Unbracketed brackets char → ∃ label, leaves label char) :
    ∃ forest, Nest.OverAll brackets leaves forest ∧ Nest.renderAll forest = text := by
  induction htext with
  | nil => exact ⟨[], by rw [Nest.OverAll]; trivial, by rw [Nest.renderAll]⟩
  | @plain char rest hchar _ ih =>
      obtain ⟨label, hleaf⟩ := hleaves char List.mem_cons_self hchar
      obtain ⟨forest, hforest, hrender⟩ :=
        ih fun other hother => hleaves other (List.mem_cons_of_mem char hother)
      refine ⟨.leaf label char :: forest, ?_, ?_⟩
      · rw [Nest.OverAll, Nest.Over]
        exact ⟨hleaf, hforest⟩
      · rw [Nest.renderAll, Nest.render, hrender]
        rfl
  | @pair bracket inside rest hbracket _ _ ihinside ihrest =>
      obtain ⟨within, hwithin, hinside⟩ :=
        ihinside fun char hchar => hleaves char (by simp [hchar])
      obtain ⟨forest, hforest, hrest⟩ := ihrest fun char hchar => hleaves char (by simp [hchar])
      refine ⟨.pair bracket within :: forest, ?_, ?_⟩
      · rw [Nest.OverAll, Nest.Over]
        exact ⟨⟨hbracket, hwithin⟩, hforest⟩
      · rw [Nest.renderAll, Nest.render, hinside, hrest]
        simp

end Rulebook
