import Rulebook.Proofs.Tiling

/-!
# Parsing from a boundary on

Matching sees nothing but the text that is left, so what captured patterns take behind a boundary
between two tokens is what they take of the text from there on. The two parses tell of it in
different terms: the parse of the rest counts lines, columns and characters from its own beginning.
-/

namespace Rulebook

/-! ## Counting from elsewhere -/

/-- What a cursor that was counted from a boundary on is when counted from the beginning. Only the
line of the boundary has something before it. -/
def Cursor.rebase (boundary cursor : Cursor) : Cursor where
  line := boundary.line + cursor.line - 1
  column := if cursor.line = 1 then boundary.column + cursor.column - 1 else cursor.column
  offset := boundary.offset + cursor.offset

/-- The heading with its span counted from elsewhere. -/
def Heading.rebase (boundary : Cursor) (heading : Heading) : Heading :=
  { heading with
    span := heading.span.map fun ends => (boundary.rebase ends.1, boundary.rebase ends.2) }

mutual

/-- The tree with all its spans counted from elsewhere. -/
def Tree.rebase (boundary : Cursor) : Tree → Tree
  | .node heading below => .node (heading.rebase boundary) (Tree.rebaseAll boundary below)

/-- Trees side by side with all their spans counted from elsewhere. -/
def Tree.rebaseAll (boundary : Cursor) : List Tree → List Tree
  | [] => []
  | tree :: rest => tree.rebase boundary :: Tree.rebaseAll boundary rest

end

/-- Where a complaint points that is about what is at a cursor. -/
def Cursor.pointer (cursor : Cursor) (text : List Char) : Pointer where
  line := toString cursor.line
  column := toString cursor.column
  snippet := Text.caretSnippet text cursor.offset

/-- Where trees side by side end that begin with a text. -/
def boundaryOf (trees : List Tree) : Cursor :=
  match trees.getLast? with
  | some (.node ⟨_, _, some (_, stop)⟩ _) => stop
  | _ => .start

namespace Cursor

variable {boundary cursor : Cursor}

theorem rebase_start (boundary : Cursor) : boundary.rebase .start = boundary := by
  simp [rebase, start]

theorem rebase_step (hline : 1 ≤ cursor.line) (hcolumn : 1 ≤ cursor.column) (char : Char) :
    (boundary.rebase cursor).step char = boundary.rebase (cursor.step char) := by
  by_cases hbreak : char = '\n'
  · simp only [step, if_pos hbreak, rebase, Cursor.mk.injEq]
    refine ⟨by omega, ?_, by omega⟩
    rw [if_neg (by omega)]
  · simp only [step, if_neg hbreak, rebase, Cursor.mk.injEq]
    refine ⟨trivial, ?_, by omega⟩
    split <;> omega

theorem line_le_step (cursor : Cursor) (char : Char) : cursor.line ≤ (cursor.step char).line := by
  unfold step
  split <;> simp

theorem one_le_column_step (cursor : Cursor) (char : Char)
    (hcolumn : 1 ≤ cursor.column) : 1 ≤ (cursor.step char).column := by
  unfold step
  split
  next => exact Nat.le_refl 1
  next => exact Nat.le_add_right_of_le hcolumn

/-- Counting on from elsewhere and counting from elsewhere come to the same. -/
theorem rebase_advance (hline : 1 ≤ cursor.line) (hcolumn : 1 ≤ cursor.column)
    (consumed : List Char) :
    (boundary.rebase cursor).advance consumed = boundary.rebase (cursor.advance consumed) := by
  induction consumed generalizing cursor with
  | nil => rfl
  | cons char rest ih =>
      rw [advance_cons, advance_cons, rebase_step hline hcolumn]
      exact ih (Nat.le_trans hline (line_le_step cursor char))
        (one_le_column_step cursor char hcolumn)

theorem rebase_advance_start (boundary : Cursor) (consumed : List Char) :
    boundary.rebase (start.advance consumed) = boundary.advance consumed := by
  rw [← rebase_advance (Nat.le_refl 1) (Nat.le_refl 1), rebase_start]

example : rebase ⟨2, 2, 3⟩ (start.advance ['a', '\n', 'a']) =
    start.advance ['a', '\n', 'a', 'a', '\n', 'a'] := by
  decide

end Cursor

/-! ## The tokens behind a boundary -/

section Tokens

variable {patterns : Table String Pattern}

/-- Reading from a boundary between tokens on takes the tokens that come after it. -/
theorem tokens_drop (text : List Char) (count : Nat) :
    tokens patterns
        (text.drop (((tokens patterns text).1.take count).flatMap Token.word).length) =
      ((tokens patterns text).1.drop count, (tokens patterns text).2) := by
  induction text using tokens.induct patterns generalizing count with
  | case1 => simp [tokens_nil]
  | case2 char rest hfirst => simp [tokens_none hfirst]
  | case3 char rest token hfirst ih =>
      cases count with
      | zero => simp
      | succ count =>
          rw [tokens_some hfirst, List.take_succ_cons, List.flatMap_cons, List.length_append,
            ← List.drop_drop, List.drop_succ_cons]
          exact ih count

theorem tiles_append (cursor : Cursor) (first second : List Token) :
    tiles cursor (first ++ second) =
      tiles cursor first ++ tiles (cursor.advance (first.flatMap Token.word)) second := by
  induction first generalizing cursor with
  | nil => rfl
  | cons token rest ih =>
      rw [List.cons_append, tiles, tiles, ih, List.flatMap_cons, Cursor.advance_append,
        List.cons_append]

theorem take_tiles (cursor : Cursor) (taken : List Token) (count : Nat) :
    (tiles cursor taken).take count = tiles cursor (taken.take count) := by
  induction taken generalizing cursor count with
  | nil => simp [tiles]
  | cons token rest ih =>
      cases count with
      | zero => rfl
      | succ count => rw [tiles, List.take_succ_cons, List.take_succ_cons, tiles, ih]

theorem drop_tiles (cursor : Cursor) (taken : List Token) (count : Nat) :
    (tiles cursor taken).drop count =
      tiles (cursor.advance ((taken.take count).flatMap Token.word)) (taken.drop count) := by
  induction taken generalizing cursor count with
  | nil => simp [tiles]
  | cons token rest ih =>
      cases count with
      | zero => rfl
      | succ count =>
          rw [tiles, List.drop_succ_cons, ih, List.take_succ_cons, List.flatMap_cons,
            Cursor.advance_append, List.drop_succ_cons]

theorem boundaryOf_tiles (taken : List Token) :
    boundaryOf (tiles .start taken) = Cursor.start.advance (taken.flatMap Token.word) := by
  rcases List.eq_nil_or_concat' taken with rfl | ⟨before, token, rfl⟩
  · rfl
  · rw [tiles_append, List.flatMap_append, Cursor.advance_append, boundaryOf, tiles, tiles,
      List.getLast?_concat, List.flatMap_singleton]
    rfl

/-- The trees of tokens somewhere in a text are those of the same tokens at its beginning. -/
theorem rebaseAll_tiles (boundary : Cursor) (before : List Char) (taken : List Token) :
    Tree.rebaseAll boundary (tiles (Cursor.start.advance before) taken) =
      tiles (boundary.advance before) taken := by
  induction taken generalizing before with
  | nil => rfl
  | cons token rest ih =>
      have hrest := ih (before ++ token.word)
      rw [Cursor.advance_append, Cursor.advance_append] at hrest
      rw [tiles, tiles, Tree.rebaseAll, hrest, Tree.leaf, Tree.rebase, Heading.rebase,
        Tree.rebaseAll]
      simp only [Option.map_some, ← Cursor.advance_append, Cursor.rebase_advance_start]
      rfl

end Tokens

/-! ## Parsing twice -/

/-- The result of a parse that gives its root, unless there is a character that it is stuck at. -/
def conclusion (text : List Char) (root : Nat) (stop : Cursor) : Option Char → Except Fault Value
  | none => .ok (.node root)
  | some char =>
    .error (.unexpectedCharacter (Text.quoted (String.ofList [char])) (stop.pointer text))

/-- What a parse of a text leaves on a parser, and how it ends: with trees below the root, and with
the cursor at the end of the text or at a character that it is stuck at. -/
structure World.Concludes (world : World) (id : HostId) (text : List Char) (trees : List Tree)
    (stop : Cursor) (result : Except Fault Value) : Prop where
  cursor : (world.host id).cursor = some stop
  root : ∃ root, (world.host id).root = some (.node root) ∧
    world.Holds .null root (.node ⟨"root", [], none⟩ trees) ∧
    result = conclusion text root stop text[stop.offset]?

theorem World.Concludes.returns {world : World} {id : HostId} {text : List Char}
    {trees : List Tree} {stop : Cursor} {result : Except Fault Value}
    (hconcludes : world.Concludes id text trees stop result) :
    (∃ value, result = .ok value) ↔ text[stop.offset]? = none := by
  obtain ⟨root, _, _, rfl⟩ := hconcludes.root
  cases text[stop.offset]? with
  | none => exact ⟨fun _ => rfl, fun _ => ⟨_, rfl⟩⟩
  | some char => exact ⟨nofun, nofun⟩

section Parse

variable {world : World} {rounds depth : Nat} {id : HostId} {patterns : Table String Pattern}
  {captures : List Capture} {text : String}

/-- A parse that took tokens concludes with their trees. -/
theorem World.Parses.concludes {table : Table String Rule} {reading : Reading} {taken : List Token}
    {unread : List Char} {result : Except Fault Value}
    (hparses : world.Parses id table (.afterAll reading .root taken))
    (hcursor : reading.cursor = .start)
    (happend : taken.flatMap Token.word ++ unread = reading.input.toList)
    (hresult : result = (tokensEnding reading .root (taken, unread)).result) :
    world.Concludes id reading.input.toList (tiles .start taken)
      (Cursor.start.advance (taken.flatMap Token.word)) result := by
  have hchar : reading.input.toList[(Cursor.start.advance (taken.flatMap Token.word)).offset]? =
      unread.head? := by
    rw [Cursor.offset_advance, Cursor.start, Nat.zero_add, ← happend,
      List.getElem?_append_right (Nat.le_refl _), Nat.sub_self, List.head?_eq_getElem?]
  refine ⟨?_, reading.root, hparses.reads.root, ?_, ?_⟩
  · rw [← hcursor]
    exact hparses.reads.cursor
  · rw [← hcursor]
    exact hparses.grows.holds
  · rw [hresult, hchar, ← hcursor]
    cases unread with
    | nil => rfl
    | cons char rest => rfl

theorem parse_tokens_ends (hplain : world.Plain id)
    (hruled : world.Ruled id (patterns.map .captured)) (hnodup : patterns.keys.Nodup)
    (hbegin : ∀ entry ∈ patterns.entries, entry.2.TakesPrefixes)
    (hrounds : text.toList.length < rounds) :
    ((Kernel.ofDepth rounds (depth + 7)).sendHost id "parse" [.text text]).Ends world
      fun result after =>
        after.Concludes id text.toList (tiles .start (tokens patterns text.toList).1)
          (Cursor.start.advance ((tokens patterns text.toList).1.flatMap Token.word)) result := by
  let reading : Reading := ⟨text, .start, world.forest.size, world.openStacks.size⟩
  have hgoes : Goes (Kernel.ofDepth rounds (depth + 5)) id (patterns.map .captured)
      (.start text world.forest.size world.openStacks.size)
      (tokensEnding reading .root (tokens patterns text.toList)) :=
    goes_tokens hnodup rfl
  refine Run.Ends.mono (parse_ends hplain hruled hgoes hrounds) ?_
  rintro result after ⟨hresult, hafter⟩
  have hparses : after.Parses id (patterns.map .captured)
      (.afterAll reading .root (tokens patterns text.toList).1) := by
    refine hafter _ ?_
    rcases tokens patterns text.toList with ⟨taken, _ | ⟨char, rest⟩⟩ <;> rfl
  exact hparses.concludes rfl (tokens_append hbegin text.toList) hresult

/-- Whatever is captured, a text can be cut between any two of the tokens that its parse takes,
however that ends. Parsing what comes behind the cut gives the trees that come behind it, counted
from the cut, and ends at the same place in the same way. -/
theorem parse_captured_suffix
    (hbegin : ∀ entry ∈ (capturedPatterns captures).entries, entry.2.TakesPrefixes)
    (hrounds : text.toList.length < rounds) :
    (parseWith (Kernel.ofDepth rounds (depth + 7)) (captures.map .capture) text).Gives world
      fun found after => ∃ trees stop,
        after.Concludes found.1 text.toList trees stop found.2 ∧
        ∀ count, ∃ boundary, boundary = boundaryOf (trees.take count) ∧
          (trees.take count).flatMap Tree.val = text.toList.take boundary.offset ∧
          ((Kernel.ofDepth rounds (depth + 7)).sendHost found.1 "parse"
            [.text (String.ofList (text.toList.drop boundary.offset))]).Ends after
            fun result later => ∃ below stop',
              later.Concludes found.1 (text.toList.drop boundary.offset) below stop' result ∧
              trees.drop count = Tree.rebaseAll boundary below ∧
              stop = boundary.rebase stop' ∧
              text.toList[stop.offset]? = (text.toList.drop boundary.offset)[stop'.offset]? ∧
              ((∃ value, result = .ok value) ↔ ∃ value, found.2 = .ok value) := by
  refine Run.Gives.mono (parseCaptured_gives hbegin hrounds) ?_
  rintro found after ⟨reading, taken, unread, htokens, happend, rfl, hcursor, hresult, hafter⟩
  have hconcludes := hafter.concludes hcursor happend hresult
  refine ⟨_, _, hconcludes, fun count => ?_⟩
  have hsplit : (taken.take count).flatMap Token.word ++ (taken.drop count).flatMap Token.word =
      taken.flatMap Token.word := by
    rw [← List.flatMap_append, List.take_append_drop]
  have hplace : (Cursor.start.advance ((taken.take count).flatMap Token.word)).offset =
      ((taken.take count).flatMap Token.word).length := by
    rw [Cursor.offset_advance, Cursor.start, Nat.zero_add]
  refine ⟨Cursor.start.advance ((taken.take count).flatMap Token.word), ?_, ?_, ?_⟩
  · rw [take_tiles, boundaryOf_tiles]
  · rw [take_tiles, tiles_val, hplace, ← happend, ← hsplit, List.append_assoc, List.take_left]
  · rw [hplace]
    have hruled : after.Ruled found.1 ((capturedPatterns captures).map .captured) :=
      registered_captures captures ▸ hafter.ruled
    have hshort : (String.ofList (reading.input.toList.drop
        ((taken.take count).flatMap Token.word).length)).toList.length < rounds := by
      rw [String.toList_ofList, List.length_drop]
      omega
    refine Run.Ends.mono (parse_tokens_ends hafter.reads.plain hruled
      (nodup_capturedPatterns captures) hbegin hshort) ?_
    intro result later hlater
    -- the tokens of the rest are those behind the cut
    have hrest : tokens (capturedPatterns captures) (reading.input.toList.drop
        ((taken.take count).flatMap Token.word).length) = (taken.drop count, unread) := by
      have hdrop := @tokens_drop (capturedPatterns captures) reading.input.toList count
      rwa [htokens] at hdrop
    rw [String.toList_ofList, hrest] at hlater
    have hstop : Cursor.start.advance (taken.flatMap Token.word) =
        (Cursor.start.advance ((taken.take count).flatMap Token.word)).rebase
          (Cursor.start.advance ((taken.drop count).flatMap Token.word)) := by
      rw [Cursor.rebase_advance_start, ← Cursor.advance_append, hsplit]
    have hchar : reading.input.toList[(Cursor.start.advance (taken.flatMap Token.word)).offset]? =
        (reading.input.toList.drop ((taken.take count).flatMap Token.word).length)[
          (Cursor.start.advance ((taken.drop count).flatMap Token.word)).offset]? := by
      rw [List.getElem?_drop, hstop, Cursor.rebase, hplace]
    refine ⟨_, _, hlater, ?_, hstop, hchar, ?_⟩
    · rw [drop_tiles]
      exact (rebaseAll_tiles _ [] _).symm
    · rw [hlater.returns, hconcludes.returns, hchar]

/-- A pattern for a line break and one for a letter. -/
def lineLetter : List Capture := [⟨"line", .source "^\n", ""⟩, ⟨"a", .source "^a", ""⟩]

theorem takesPrefixes_lineLetter :
    ∀ entry ∈ (capturedPatterns lineLetter).entries, entry.2.TakesPrefixes := by
  have hkeeps : ∀ entry ∈ (capturedPatterns lineLetter).entries,
      entry.2.dialect = .plain ∨ entry.2.expr.keepsAll = true := by decide +kernel
  exact fun entry hentry => Pattern.takesPrefixes (hkeeps entry hentry)

/-- The cut behind the third token is on the second line, and so is the character that both parses
are stuck at. -/
theorem parse_two_lines_suffix :
    (∀ entry ∈ (capturedPatterns lineLetter).entries, entry.2.TakesPrefixes) ∧
      "a\naa?".toList.length < 6 ∧
      (parseWith (Kernel.ofDepth 6 7) (lineLetter.map .capture) "a\naa?").Gives .start
        fun found after => ∃ trees stop,
          after.Concludes found.1 "a\naa?".toList trees stop found.2 ∧
          ∀ count, ∃ boundary, boundary = boundaryOf (trees.take count) ∧
            (trees.take count).flatMap Tree.val = "a\naa?".toList.take boundary.offset ∧
            ((Kernel.ofDepth 6 7).sendHost found.1 "parse"
              [.text (String.ofList ("a\naa?".toList.drop boundary.offset))]).Ends after
              fun result later => ∃ below stop',
                later.Concludes found.1 ("a\naa?".toList.drop boundary.offset) below stop' result ∧
                trees.drop count = Tree.rebaseAll boundary below ∧
                stop = boundary.rebase stop' ∧
                "a\naa?".toList[stop.offset]? =
                  ("a\naa?".toList.drop boundary.offset)[stop'.offset]? ∧
                ((∃ value, result = .ok value) ↔ ∃ value, found.2 = .ok value) :=
  ⟨takesPrefixes_lineLetter, by decide,
    parse_captured_suffix takesPrefixes_lineLetter (by decide)⟩

end Parse

end Rulebook
