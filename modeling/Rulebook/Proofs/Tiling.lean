import Rulebook.Proofs.Tokenizer

/-!
# The tree of captured patterns as a tiling

With captured patterns alone, the children of the root are at any end of a parse the consumed text
cut into pieces: nothing is lost, nothing comes twice, and each piece begins where the one before it
ended. This holds for a parse that succeeds and for one that complains.
-/

namespace Rulebook

/-- The text of the node that a tree is headed by. -/
def Tree.val : Tree → List Char
  | .node heading _ => heading.val

/-- Trees are single nodes that cut a text into pieces that are not empty, from one cursor on up to
another; each piece begins at the cursor where the one before it ended. -/
def Tiles (text : List Char) : Cursor → List Tree → Cursor → Prop
  | start, [], stop => start = stop
  | start, tree :: rest, stop => ∃ label word next,
      tree = .leaf ⟨label, word, some (start, next)⟩ ∧ word ≠ [] ∧
        word = Text.slice text start.offset next.offset ∧
        next = .ofPlace text next.offset ∧ Tiles text next rest stop

theorem Text.slice_of_prefix {text word : List Char} {place : Nat}
    (hword : word <+: text.drop place) : Text.slice text place (place + word.length) = word := by
  rw [Text.slice, List.drop_take, Nat.add_sub_cancel_left]
  exact (List.prefix_iff_eq_take.mp hword).symm

/-- Tokens that a text begins with cut it into pieces. -/
theorem tiles_cut {text : List Char} {place : Nat} {taken : List Token}
    (htaken : taken.flatMap Token.word <+: text.drop place) :
    Tiles text (.ofPlace text place) (tiles (.ofPlace text place) taken)
      (.ofPlace text (place + (taken.flatMap Token.word).length)) := by
  induction taken generalizing place with
  | nil => rfl
  | cons token rest ih =>
      -- the pieces after the first one are cut from where it ends
      rw [List.flatMap_cons] at htaken
      have hword : token.word <+: text.drop place := (List.prefix_append _ _).trans htaken
      have hnext := Cursor.advance_ofPlace hword
      have hrest : rest.flatMap Token.word <+: text.drop (place + token.word.length) := by
        obtain ⟨further, hfurther⟩ := htaken
        rw [← List.drop_drop, ← hfurther, List.append_assoc, List.drop_left]
        exact List.prefix_append _ _
      rw [tiles, hnext, List.flatMap_cons, List.length_append, ← Nat.add_assoc]
      refine ⟨token.label, token.word, _, rfl, token.consumes, ?_, rfl, ih hrest⟩
      exact (Text.slice_of_prefix hword).symm

theorem tiles_val (cursor : Cursor) (taken : List Token) :
    (tiles cursor taken).flatMap Tree.val = taken.flatMap Token.word := by
  induction taken generalizing cursor with
  | nil => rfl
  | cons token rest ih =>
      rw [tiles, List.flatMap_cons, List.flatMap_cons, ih]
      rfl

variable {world : World} {rounds depth : Nat} {captures : List Capture} {text : String}

/-- However a parse with captured patterns ends, the children of the root tile the text up to the
location of the parser, and that is the end of the text exactly if the parse succeeded. -/
theorem parse_captured_tiles
    (hbegin : ∀ entry ∈ (capturedPatterns captures).entries, entry.2.TakesPrefixes)
    (hrounds : text.toList.length < rounds) :
    (parseWith (Kernel.ofDepth rounds (depth + 7)) (captures.map .capture) text).Gives world
      fun found after => ∃ root cursor trees,
        (after.host found.1).root = some (.node root) ∧
        after.Holds .null root (.node ⟨"root", [], none⟩ trees) ∧
        ((Kernel.ofDepth rounds (depth + 7)).sendHost found.1 "location" []).Gives after
          (fun value _ => ∃ serial, value = .ofCursor serial cursor) ∧
        Tiles text.toList .start trees cursor ∧
        trees.flatMap Tree.val = text.toList.take cursor.offset ∧
        (cursor.offset = text.toList.length ↔ ∃ value, found.2 = .ok value) := by
  refine Run.Gives.mono (parseCaptured_gives hbegin hrounds) ?_
  rintro found after ⟨reading, taken, unread, _, happend, rfl, hcursor, hresult, hafter⟩
  have htaken : taken.flatMap Token.word <+: reading.input.toList.drop 0 := ⟨unread, happend⟩
  have hplace : (Stage.afterAll reading .root taken).reading.cursor =
      .ofPlace reading.input.toList (taken.flatMap Token.word).length :=
    cursor_afterAll .root hcursor happend
  have hlocation : ((Kernel.ofDepth rounds (depth + 7)).sendHost found.1 "location" []).Gives after
      fun value _ => ∃ serial, value = .ofCursor serial
        (.ofPlace reading.input.toList (taken.flatMap Token.word).length) := by
    rw [← hplace]
    exact (location_gives hafter.reads.isAt).mono fun value _ hvalue => hvalue.1
  have hcut := tiles_cut htaken
  rw [Cursor.ofPlace_zero, Nat.zero_add] at hcut
  refine ⟨reading.root, _, tiles .start taken, hafter.reads.root, ?_, hlocation, hcut, ?_, ?_⟩
  · rw [← hcursor]
    exact hafter.grows.holds
  · rw [tiles_val]
    exact List.prefix_iff_eq_take.mp htaken
  · rw [Cursor.ofPlace, ← happend, List.length_append]
    cases unread with
    | nil => exact ⟨fun _ => ⟨_, hresult⟩, fun _ => by simp⟩
    | cons char rest =>
        constructor
        · intro hend
          simp at hend
        · rintro ⟨value, hvalue⟩
          rw [hresult] at hvalue
          cases hvalue

/-- The tree that a complaint leaves behind covers what comes before it. -/
theorem parse_slash_comma_stuck :
    (∀ entry ∈ (capturedPatterns slashComma).entries, entry.2.TakesPrefixes) ∧
      "/,x".toList.length < 4 ∧
      (parseWith (Kernel.ofDepth 4 7) (slashComma.map .capture) "/,x").Gives .start
        fun found after => ∃ root cursor trees,
          (after.host found.1).root = some (.node root) ∧
          after.Holds .null root (.node ⟨"root", [], none⟩ trees) ∧
          ((Kernel.ofDepth 4 7).sendHost found.1 "location" []).Gives after
            (fun value _ => ∃ serial, value = .ofCursor serial cursor) ∧
          Tiles "/,x".toList .start trees cursor ∧
          trees.flatMap Tree.val = "/,x".toList.take cursor.offset ∧
          (cursor.offset = "/,x".toList.length ↔ ∃ value, found.2 = .ok value) :=
  ⟨takesPrefixes_slashComma, by decide, parse_captured_tiles takesPrefixes_slashComma (by decide)⟩

end Rulebook
