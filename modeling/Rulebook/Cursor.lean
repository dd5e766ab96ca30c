/-!
# Cursors

A cursor stands before a character of an input. It counts lines and columns from one and
characters from zero; consuming a text moves it past every character, and `'\n'` alone starts a
line.
-/

namespace Rulebook

/-- The place where reading goes on. -/
structure Cursor where
  line : Nat
  column : Nat
  offset : Nat
deriving Repr, DecidableEq, Inhabited

namespace Cursor

/-- The beginning of every input. -/
def start : Cursor := ⟨1, 1, 0⟩

/-- The cursor behind one more character. -/
def step (cursor : Cursor) (char : Char) : Cursor :=
  if char = '\n' then ⟨cursor.line + 1, 1, cursor.offset + 1⟩
  else ⟨cursor.line, cursor.column + 1, cursor.offset + 1⟩

/-- The cursor behind a consumed text. -/
def advance (cursor : Cursor) (consumed : List Char) : Cursor :=
  consumed.foldl step cursor

@[simp] theorem advance_nil (cursor : Cursor) : cursor.advance [] = cursor := rfl

@[simp] theorem advance_cons (cursor : Cursor) (char : Char) (rest : List Char) :
    cursor.advance (char :: rest) = (cursor.step char).advance rest := rfl

/-- Texts can be consumed at once or one after the other. -/
theorem advance_append (cursor : Cursor) (first second : List Char) :
    cursor.advance (first ++ second) = (cursor.advance first).advance second :=
  List.foldl_append

@[simp] theorem offset_step (cursor : Cursor) (char : Char) :
    (cursor.step char).offset = cursor.offset + 1 := by
  unfold step
  split <;> rfl

/-- The offset counts the characters consumed. -/
@[simp] theorem offset_advance (cursor : Cursor) (consumed : List Char) :
    (cursor.advance consumed).offset = cursor.offset + consumed.length := by
  induction consumed generalizing cursor with
  | nil => rfl
  | cons char rest ih =>
    rw [advance_cons, ih, offset_step, List.length_cons]
    omega

end Cursor

end Rulebook
