import Rulebook.Proofs.Stack

/-!
# Where a cursor is

A cursor counts lines and columns as it goes, and what it has counted is what the text says: the
line is one more than the line breaks before the cursor, and the column one more than the
characters since the last of them. The line that a complaint shows is found the other way, from the
text alone, so that the two agree is what makes a complaint point at the character it is about.
-/

namespace Rulebook

/-- The cursor at a place of a text. -/
def Cursor.ofPlace (text : List Char) (place : Nat) : Cursor where
  line := (text.take place).count '\n' + 1
  column := place - Text.lineStart text place + 1
  offset := place

/-- Where a complaint points that is about a place of a text. -/
def Pointer.ofPlace (text : List Char) (place : Nat) : Pointer where
  line := toString (Cursor.ofPlace text place).line
  column := toString (Cursor.ofPlace text place).column
  snippet := Text.caretSnippet text place

namespace Text

variable {text : List Char} {place : Nat} {char : Char}

theorem lineStart_zero (text : List Char) : lineStart text 0 = 0 := by
  simp [lineStart]

/-- Lines begin after line breaks and nowhere else. -/
theorem lineStart_succ (hchar : text[place]? = some char) :
    lineStart text (place + 1) = if char = '\n' then place + 1 else lineStart text place := by
  obtain ⟨hplace, rfl⟩ := List.getElem?_eq_some_iff.mp hchar
  have hlength : (text.take place).length = place := by
    rw [List.length_take]
    omega
  simp only [lineStart, List.take_succ_eq_append_getElem hplace, List.length_append,
    List.reverse_append, List.reverse_singleton, List.singleton_append, List.takeWhile_cons,
    hlength]
  by_cases hbreak : text[place] = '\n'
  · simp [staysOnLine, hbreak]
  · have hstays : staysOnLine text[place] = true := by simpa [staysOnLine] using hbreak
    simp only [hstays, if_true, List.length_cons, List.length_nil, if_neg hbreak]
    omega

theorem lineStart_le (text : List Char) (place : Nat) : lineStart text place ≤ place := by
  rw [lineStart]
  have hlength := List.length_take_le place text
  omega

end Text

namespace Cursor

variable {text : List Char} {place : Nat}

theorem step_ofPlace {char : Char} (hchar : text[place]? = some char) :
    (ofPlace text place).step char = ofPlace text (place + 1) := by
  have hstart := Text.lineStart_le text place
  obtain ⟨hplace, hget⟩ := List.getElem?_eq_some_iff.mp hchar
  have hcount : (text.take (place + 1)).count '\n' =
      (text.take place).count '\n' + if char = '\n' then 1 else 0 := by
    rw [List.take_succ_eq_append_getElem hplace, hget, List.count_append, List.count_singleton]
    simp
  rw [step, ofPlace, ofPlace, hcount, Text.lineStart_succ hchar]
  split
  next => simp
  next => simp only [Nat.add_zero, Cursor.mk.injEq, true_and, and_true]; omega

/-- Consuming the next characters of a text moves a cursor as far as they reach. -/
theorem advance_ofPlace {word : List Char} (hword : word <+: text.drop place) :
    (ofPlace text place).advance word = ofPlace text (place + word.length) := by
  induction word generalizing place with
  | nil => rfl
  | cons char rest ih =>
      obtain ⟨further, hfurther⟩ := hword
      have hchar : text[place]? = some char := by
        rw [← List.head?_drop, ← hfurther]
        rfl
      have hrest : rest <+: text.drop (place + 1) := by
        rw [← List.drop_drop, ← hfurther]
        exact ⟨further, rfl⟩
      rw [advance_cons, step_ofPlace hchar, ih hrest, List.length_cons]
      congr 1
      omega

theorem ofPlace_zero (text : List Char) : ofPlace text 0 = start := by
  rw [ofPlace, Text.lineStart_zero]
  rfl

end Cursor

/-! ## Reading on -/

/-- The reading after a text. -/
def Reading.past (reading : Reading) (consumed : List Char) : Reading :=
  { reading with cursor := reading.cursor.advance consumed }

namespace Reading

variable {reading : Reading} {first second : List Char}

theorem pointer_ofPlace {place : Nat}
    (hcursor : reading.cursor = .ofPlace reading.input.toList place) :
    reading.pointer = .ofPlace reading.input.toList place := by
  rw [pointer, hcursor]
  rfl

theorem past_append (reading : Reading) (first second : List Char) :
    (reading.past first).past second = reading.past (first ++ second) := by
  rw [past, past, past, Cursor.advance_append]

theorem drop_past (hrest : reading.input.toList.drop reading.cursor.offset = first ++ second) :
    (reading.past first).input.toList.drop (reading.past first).cursor.offset = second := by
  rw [past, Cursor.offset_advance, ← List.drop_drop, hrest, List.drop_left]

theorem getElem?_of_rest {char : Char} {rest : List Char}
    (hrest : reading.input.toList.drop reading.cursor.offset = char :: rest) :
    reading.input.toList[reading.cursor.offset]? = some char := by
  rw [← List.head?_drop, hrest]
  rfl

theorem cursor_past (hcursor : reading.cursor = .start)
    (htext : first ++ second = reading.input.toList) :
    (reading.past first).cursor = .ofPlace reading.input.toList first.length := by
  have hbegin : first <+: reading.input.toList.drop 0 := ⟨second, htext⟩
  have hadvance := Cursor.advance_ofPlace hbegin
  rw [Cursor.ofPlace_zero, Nat.zero_add] at hadvance
  rw [past, hcursor]
  exact hadvance

end Reading

end Rulebook
