import Mathlib.Data.List.Basic
import Rulebook.Text.Lines

/-!
# The line around a place

A place cuts a text into what stands before its line, what stands on the line left and right of
it, and what comes after the line. The two searches for line breaks find exactly this line, and it
is the one that splitting the text at its line breaks counts to.
-/

namespace Rulebook.Text

theorem staysOnLine_of_not_mem {line : List Char} (hline : '\n' ∉ line) :
    ∀ char ∈ line, staysOnLine char = true := by
  rintro char hmem
  rw [staysOnLine, bne_iff_ne]
  rintro rfl
  exact hline hmem

/-- Every text begins with a line, and a line break if it goes on. -/
theorem exists_line (text : List Char) :
    ∃ line rest, text = line ++ rest ∧ '\n' ∉ line ∧
      (rest = [] ∨ ∃ lines, rest = '\n' :: lines) := by
  induction text with
  | nil => exact ⟨[], [], rfl, List.not_mem_nil, Or.inl rfl⟩
  | cons char text ih =>
      by_cases hbreak : char = '\n'
      · exact ⟨[], char :: text, rfl, List.not_mem_nil, Or.inr ⟨text, by rw [hbreak]⟩⟩
      · obtain ⟨line, rest, rfl, hline, hrest⟩ := ih
        exact ⟨char :: line, rest, rfl, by simp [Ne.symm hbreak, hline], hrest⟩

theorem takeWhile_line {line rest : List Char} (hline : '\n' ∉ line)
    (hrest : rest = [] ∨ ∃ lines, rest = '\n' :: lines) :
    (line ++ rest).takeWhile staysOnLine = line := by
  rw [List.takeWhile_append_of_pos (staysOnLine_of_not_mem hline)]
  rcases hrest with rfl | ⟨lines, rfl⟩
  · exact List.append_nil line
  · rw [List.takeWhile_cons_of_neg (by decide), List.append_nil]

/-! ## Splitting -/

theorem splitOn_line {line : List Char} (hline : '\n' ∉ line) : line.splitOn '\n' = [line] := by
  rw [List.splitOn_eq_splitOnP]
  refine List.splitOnP_eq_singleton ?_
  rintro char hmem
  rw [beq_eq_false_iff_ne]
  rintro rfl
  exact hline hmem

theorem splitOn_append (lines rest : List Char) :
    (lines ++ '\n' :: rest).splitOn '\n' = lines.splitOn '\n' ++ rest.splitOn '\n' := by
  simp only [List.splitOn_eq_splitOnP]
  exact List.splitOnP_append_cons lines rest (by decide)

/-- There is one line more than there are line breaks. -/
theorem length_splitOn (text : List Char) :
    (text.splitOn '\n').length = text.count '\n' + 1 := by
  induction text with
  | nil => rfl
  | cons char text ih =>
      rw [List.splitOn_eq_splitOnP] at ih ⊢
      rw [List.splitOnP_cons_eq_if_modifyHead, List.count_cons]
      split
      next => rw [List.length_cons, ih]
      next => rw [List.length_modifyHead, ih, Nat.add_zero]

/-! ## Around a place -/

/-- What stands before the line of a place, left and right of the place on that line, and after
it. -/
structure LineAround (text : List Char) (place : Nat) (before left right after : List Char) :
    Prop where
  text : text = before ++ (left ++ (right ++ after))
  place : place = before.length + left.length
  left : '\n' ∉ left
  right : '\n' ∉ right
  before : before = [] ∨ ∃ lines, before = lines ++ ['\n']
  after : after = [] ∨ ∃ lines, after = '\n' :: lines

theorem exists_lineAround {text : List Char} {place : Nat} (hplace : place ≤ text.length) :
    ∃ before left right after, LineAround text place before left right after := by
  -- the line ends at the first break on the right, and begins after the first one on the left
  obtain ⟨right, after, hafter, hright, hbreak⟩ := exists_line (text.drop place)
  obtain ⟨left, before, hbefore, hleft, hstart⟩ := exists_line (text.take place).reverse
  have htake : text.take place = before.reverse ++ left.reverse := by
    rw [← List.reverse_append, ← hbefore, List.reverse_reverse]
  refine ⟨before.reverse, left.reverse, right, after, ?_, ?_, ?_, hright, ?_, hbreak⟩
  · rw [← hafter, ← List.append_assoc, ← htake, List.take_append_drop]
  · have hlength := congrArg List.length htake
    rw [List.length_append, List.length_take_of_le hplace] at hlength
    exact hlength
  · rwa [List.mem_reverse]
  · rcases hstart with rfl | ⟨lines, rfl⟩
    · exact Or.inl rfl
    · exact Or.inr ⟨lines.reverse, List.reverse_cons⟩

namespace LineAround

variable {text before left right after : List Char} {place : Nat}
  (haround : LineAround text place before left right after)

include haround

theorem take_place : text.take place = before ++ left := by
  rw [haround.text, haround.place, ← List.append_assoc, ← List.length_append, List.take_left]

theorem drop_place : text.drop place = right ++ after := by
  rw [haround.text, haround.place, ← List.append_assoc, ← List.length_append, List.drop_left]

theorem lineStart : lineStart text place = before.length := by
  have hreverse : (before ++ left).reverse.takeWhile staysOnLine = left.reverse := by
    rw [List.reverse_append]
    refine takeWhile_line (by rw [List.mem_reverse]; exact haround.left) ?_
    rcases haround.before with rfl | ⟨lines, rfl⟩
    · exact Or.inl rfl
    · exact Or.inr ⟨lines.reverse, by simp⟩
  rw [Text.lineStart, haround.take_place]
  simp only [hreverse, List.length_append, List.length_reverse, Nat.add_sub_cancel]

theorem lineStop : lineStop text place = before.length + left.length + right.length := by
  have hinside : place ≤ text.length := by
    rw [haround.text, haround.place]
    simp only [List.length_append]
    omega
  rw [Text.lineStop, if_pos hinside, haround.drop_place,
    takeWhile_line haround.right haround.after, haround.place]

theorem slice :
    slice text (Text.lineStart text place) (Text.lineStop text place) = left ++ right := by
  rw [haround.lineStart, haround.lineStop, Text.slice, haround.text, Nat.add_assoc,
    List.take_length_add_append, List.drop_left, ← List.append_assoc, ← List.length_append,
    List.take_left]

/-- The line is the one that as many line breaks come before. -/
theorem splitOn :
    (text.splitOn '\n')[(text.take place).count '\n']? = some (left ++ right) := by
  have hline : '\n' ∉ left ++ right := by simp [haround.left, haround.right]
  have hhead : ((left ++ (right ++ after)).splitOn '\n')[0]? = some (left ++ right) := by
    rcases haround.after with rfl | ⟨lines, rfl⟩
    · rw [List.append_nil, splitOn_line hline]
      rfl
    · rw [← List.append_assoc, splitOn_append, splitOn_line hline]
      rfl
  rw [haround.take_place, List.count_append, List.count_eq_zero_of_not_mem haround.left,
    Nat.add_zero, haround.text]
  rcases haround.before with rfl | ⟨lines, rfl⟩
  · exact hhead
  · rw [List.append_assoc, List.singleton_append, splitOn_append,
      List.count_append, List.count_singleton_self, ← length_splitOn,
      List.getElem?_append_right (Nat.le_refl _), Nat.sub_self]
    exact hhead

/-- The character at the place is on the line, right behind what is left of the place, or it is the
line break that ends the line there. -/
theorem getElem?_left {char : Char} (hchar : text[place]? = some char) :
    (left ++ right)[left.length]? = some char ∨
      char = '\n' ∧ left.length = (left ++ right).length := by
  rw [← List.head?_drop, haround.drop_place] at hchar
  rw [List.getElem?_append_right (Nat.le_refl _), Nat.sub_self]
  cases right with
  | cons first rest => exact Or.inl hchar
  | nil =>
      rcases haround.after with rfl | ⟨lines, rfl⟩
      · cases hchar
      · cases hchar
        exact Or.inr ⟨rfl, by rw [List.append_nil]⟩

end LineAround

end Rulebook.Text
