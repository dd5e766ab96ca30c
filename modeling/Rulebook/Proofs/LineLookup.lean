import Rulebook.Proofs.LineAround
import Rulebook.Proofs.Method

/-!
# Looking up a line

The two searches for line breaks run in opposite directions, one of them up to a place and the
other one from it on. What they find is the one line that the place is on, whether the place is in
the middle of it, at one of its ends, or on the line break behind it; the line is one of those that
splitting the text gives, and a caret below it stands under the place.
-/

namespace Rulebook

open Run

namespace Text

/-- Two places bound the line that a place is on: no line break is between them, and they are as far
apart as line breaks and the ends of the text let them be. -/
structure BoundsLine (text : List Char) (place : Nat) (bounds : Nat × Nat) : Prop where
  start_le : bounds.1 ≤ place
  le_stop : place ≤ bounds.2
  stop_le : bounds.2 ≤ text.length
  unbroken : '\n' ∉ slice text bounds.1 bounds.2
  start : bounds.1 = 0 ∨ text[bounds.1 - 1]? = some '\n'
  stop : bounds.2 = text.length ∨ text[bounds.2]? = some '\n'

variable {text : List Char} {place : Nat} {bounds : Nat × Nat}

/-! ## Slices -/

theorem slice_append_drop {start stop : Nat} (hle : start ≤ stop) :
    slice text start stop ++ text.drop stop = text.drop start := by
  have hdrop : text.drop stop = (text.drop start).drop (stop - start) := by
    rw [List.drop_drop, Nat.add_sub_cancel' hle]
  rw [slice, List.drop_take, hdrop, List.take_append_drop]

theorem length_slice {start stop : Nat} (hstop : stop ≤ text.length) :
    (slice text start stop).length = stop - start := by
  rw [slice, List.length_drop, List.length_take_of_le hstop]

/-- A slice can be cut anywhere. -/
theorem slice_append {start middle stop : Nat} (hstart : start ≤ middle)
    (hstop : middle ≤ stop) :
    slice text start middle ++ slice text middle stop = slice text start stop := by
  -- with what comes after them, both sides are the rest of the text from `start` on
  have hboth : slice text start middle ++ slice text middle stop ++ text.drop stop =
      slice text start stop ++ text.drop stop := by
    rw [List.append_assoc, slice_append_drop hstop, slice_append_drop hstart,
      slice_append_drop (Nat.le_trans hstart hstop)]
  exact List.append_cancel_right hboth

/-! ## Bounds cut a text around its line -/

namespace BoundsLine

variable (hbounds : BoundsLine text place bounds)

include hbounds

theorem place_le : place ≤ text.length :=
  Nat.le_trans hbounds.le_stop hbounds.stop_le

theorem unbroken_sides : '\n' ∉ slice text bounds.1 place ∧ '\n' ∉ slice text place bounds.2 := by
  have hline := hbounds.unbroken
  rwa [← slice_append hbounds.start_le hbounds.le_stop, List.mem_append, not_or] at hline

theorem take_start : text.take bounds.1 = [] ∨ ∃ lines, text.take bounds.1 = lines ++ ['\n'] := by
  rcases Nat.eq_zero_or_pos bounds.1 with hzero | hpos
  · exact Or.inl (by rw [hzero, List.take_zero])
  · have hbreak := hbounds.start.resolve_left (Nat.ne_of_gt hpos)
    refine Or.inr (List.getLast?_eq_some_iff.mp ?_)
    rw [List.getLast?_take, if_neg (Nat.ne_of_gt hpos), hbreak]
    rfl

theorem drop_stop : text.drop bounds.2 = [] ∨ ∃ lines, text.drop bounds.2 = '\n' :: lines := by
  rcases hbounds.stop with hend | hbreak
  · exact Or.inl (by rw [hend, List.drop_length])
  · refine Or.inr (List.head?_eq_some_iff.mp ?_)
    rw [List.head?_drop, hbreak]

theorem lineAround :
    LineAround text place (text.take bounds.1) (slice text bounds.1 place)
      (slice text place bounds.2) (text.drop bounds.2) where
  text := by
    rw [slice_append_drop hbounds.le_stop, slice_append_drop hbounds.start_le,
      List.take_append_drop]
  place := by
    rw [length_slice hbounds.place_le,
      List.length_take_of_le (Nat.le_trans hbounds.start_le hbounds.place_le),
      Nat.add_sub_cancel' hbounds.start_le]
  left := hbounds.unbroken_sides.1
  right := hbounds.unbroken_sides.2
  before := hbounds.take_start
  after := hbounds.drop_stop

/-- There are no bounds but those that the searches find. -/
theorem eq_lineBounds : bounds = lineBounds text place := by
  -- the searches find the line around the place, and the bounds are the lengths of its parts
  have haround := hbounds.lineAround
  have hinside := Nat.le_trans hbounds.start_le hbounds.place_le
  have hstart : lineStart text place = bounds.1 := by
    rw [haround.lineStart, List.length_take_of_le hinside]
  have hstop : lineStop text place = bounds.2 := by
    rw [haround.lineStop, List.length_take_of_le hinside, length_slice hbounds.place_le,
      length_slice hbounds.stop_le, Nat.add_sub_cancel' hbounds.start_le,
      Nat.add_sub_cancel' hbounds.le_stop]
  rw [lineBounds, hstart, hstop]

end BoundsLine

/-! ## What the searches find -/

namespace LineAround

variable {before left right after : List Char}
  (haround : LineAround text place before left right after)

include haround

theorem lineBounds_eq : lineBounds text place =
    (before.length, before.length + left.length + right.length) := by
  rw [lineBounds, haround.lineStart, haround.lineStop]

theorem length_text :
    text.length = before.length + left.length + right.length + after.length := by
  rw [haround.text]
  simp only [List.length_append, Nat.add_assoc]

theorem drop_line : text.drop (before.length + left.length + right.length) = after := by
  rw [haround.text, ← List.append_assoc, ← List.append_assoc, ← List.length_append,
    ← List.length_append, List.drop_left]

theorem boundsLine : BoundsLine text place (lineBounds text place) where
  start_le := by
    rw [haround.lineBounds_eq, haround.place]
    exact Nat.le_add_right _ _
  le_stop := by
    rw [haround.lineBounds_eq, haround.place]
    exact Nat.le_add_right _ _
  stop_le := by
    rw [haround.lineBounds_eq, haround.length_text]
    exact Nat.le_add_right _ _
  unbroken := by
    have hslice : Text.slice text (lineBounds text place).1 (lineBounds text place).2 =
        left ++ right := haround.slice
    rw [hslice, List.mem_append, not_or]
    exact ⟨haround.left, haround.right⟩
  start := by
    rw [haround.lineBounds_eq]
    rcases haround.before with rfl | ⟨lines, rfl⟩
    · exact Or.inl rfl
    · rw [haround.text, List.append_assoc]
      exact Or.inr (by simp)
  stop := by
    rw [haround.lineBounds_eq, haround.length_text, ← List.head?_drop, haround.drop_line]
    rcases haround.after with rfl | ⟨lines, rfl⟩
    · exact Or.inl rfl
    · exact Or.inr rfl

end LineAround

theorem boundsLine_iff (hplace : place ≤ text.length) :
    BoundsLine text place bounds ↔ bounds = lineBounds text place := by
  refine ⟨BoundsLine.eq_lineBounds, ?_⟩
  rintro rfl
  obtain ⟨before, left, right, after, haround⟩ := exists_lineAround hplace
  exact haround.boundsLine

/-- The line of a place is the one that as many line breaks come before. -/
theorem splitOn_lineBounds (hplace : place ≤ text.length) :
    (text.splitOn '\n')[(text.take place).count '\n']? =
      some (slice text (lineBounds text place).1 (lineBounds text place).2) := by
  obtain ⟨before, left, right, after, haround⟩ := exists_lineAround hplace
  rw [haround.splitOn, ← haround.slice]
  rfl

/-! ## Places given as indices -/

/-- An index that counts from the beginning is the place it means. -/
theorem placeOfIndex_natCast (length place : Nat) : placeOfIndex length place = place := by
  rw [placeOfIndex, if_neg (Int.not_lt.mpr (Int.natCast_nonneg place)), Int.toNat_natCast]

theorem caretSnippetAt_natCast (text : List Char) (place : Nat) :
    caretSnippetAt text place = caretSnippet text place := by
  have hblanks : ((place : Int) - lineStart text place).toNat = place - lineStart text place := by
    omega
  simp only [caretSnippetAt, caretSnippet, placeOfIndex_natCast, hblanks]

end Text

/-! ## Calls -/

section Calls

variable {world : World}

/-- A value is a list made of given items, and nothing else was done. -/
def World.MakesList (world : World) (items : Array Value) (value : Value) (after : World) : Prop :=
  value = .list (.made world.lists.size) ∧
    after = { world with lists := world.lists.push items }

theorem newList_gives (items : Array Value) :
    (newList items).Gives world (world.MakesList items) :=
  fun serial => ⟨_, _, serial, rfl, _, rfl, rfl, rfl⟩

/-- A call with an argument for each parameter runs the function. -/
theorem invoke_ends {function : Function} {values : List Value}
    {post : Except Fault Value → World → Prop} (kernel : Kernel) (hfunction : function ≠ .call)
    (hlength : ∀ present, values.length = (function.params present).length)
    (happly : (function.apply kernel values).Ends world post) :
    (function.invoke kernel (.of values)).Ends world post := by
  have hinvoke : function.invoke kernel (.of values) =
      (do function.apply kernel (← (Args.of values).bind (function.params (← get)))) := by
    cases function with
    | call => exact absurd rfl hfunction
    | _ => rfl
  intro serial
  rw [hinvoke, outcome_bind_ok (outcome_get _), Args.bind_of_length (hlength _), pure_bind]
  exact happly serial

theorem placeIn_look (length standard place : Nat) :
    (Function.placeIn length standard (.int place)).outcome world = (.ok place, world) := by
  change (Except.ok (Text.placeOfIndex length place), world) = _
  rw [Text.placeOfIndex_natCast]

theorem boundsAround_look (source : String) (place : Nat) :
    (Function.boundsAround (.text source) (.int place)).outcome world =
      (.ok (Text.lineBounds source.toList place), world) := by
  rw [Function.boundsAround]
  refine (outcome_bind_ok (placeIn_look _ _ _)).trans ?_
  exact outcome_bind_ok (placeIn_look _ _ _)

/-- A snippet is drawn if a word holds the number of its blanks. -/
theorem snippetAt_look (source : String) (place : Nat) :
    (Function.snippetAt (.text source) (.int place)).outcome world =
      (if fitsWord (place - (Text.lineBounds source.toList place).1) then
          .ok (.ofChars (Text.caretSnippet source.toList place))
        else .error .hugeCount, world) := by
  rw [Function.snippetAt]
  refine (outcome_bind_ok (boundsAround_look source place)).trans ?_
  rw [← Text.caretSnippetAt_natCast]
  simp only [Value.index?]
  split <;> rfl

theorem lineBounds_gives (kernel : Kernel) (source : String) (place : Nat) :
    (Function.lineBounds.invoke kernel (.of [.text source, .int place])).Gives world
      (world.MakesList #[.int (Text.lineBounds source.toList place).1,
        .int (Text.lineBounds source.toList place).2]) := by
  refine invoke_ends kernel (by decide) (fun _ => rfl) ?_
  refine Ends.look _ (fun serial => boundsAround_look source place) ?_
  exact newList_gives _

theorem caretSnippet_ends (kernel : Kernel) (source : String) (place : Nat) :
    (Function.caretSnippet.invoke kernel (.of [.text source, .int place])).Ends world
      fun result after => after = world ∧ result =
        if fitsWord (place - (Text.lineBounds source.toList place).1) then
          .ok (.ofChars (Text.caretSnippet source.toList place))
        else .error .hugeCount := by
  refine invoke_ends kernel (by decide) (fun _ => rfl) ?_
  intro serial
  exact ⟨_, world, serial, snippetAt_look source place, rfl, rfl⟩

/-- For every place of a text there is one pair of places that bound its line, and the line between
them is the one that as many line breaks come before. Looking the line up gives these bounds, and
a snippet shows the line and, behind a line break, a caret under the place. A call for a snippet
refuses only more blanks than a word can count, and no text that a machine holds has so many
characters. -/
theorem line_lookup_exact {source : String} {place : Nat} (hplace : place ≤ source.length)
    (kernel : Kernel) (world : World) :
    ∃ start stop : Nat, ∃ line shown : List Char,
      (∀ bounds, Text.BoundsLine source.toList place bounds ↔ bounds = (start, stop)) ∧
      (Function.lineBounds.invoke kernel (.of [.text source, .int place])).Gives world
        (world.MakesList #[.int start, .int stop]) ∧
      line = Text.slice source.toList start stop ∧
      (source.toList.splitOn '\n')[(source.toList.take place).count '\n']? = some line ∧
      shown = line ++ '\n' :: (List.replicate (place - start) ' ' ++ ['^']) ∧
      Text.caretSnippet source.toList place = shown ∧
      (Function.caretSnippet.invoke kernel (.of [.text source, .int place])).Ends world
        fun result after => after = world ∧ result =
          if fitsWord (place - start) then .ok (.ofChars shown) else .error .hugeCount := by
  have hinside : place ≤ source.toList.length := by rwa [String.length_toList]
  -- the bounds that are found are the only ones, and all else is told of them
  refine ⟨(Text.lineBounds source.toList place).1, (Text.lineBounds source.toList place).2, _,
    Text.caretSnippet source.toList place, fun bounds => Text.boundsLine_iff hinside,
    lineBounds_gives kernel source place, rfl, Text.splitOn_lineBounds hinside, rfl, rfl, ?_⟩
  exact caretSnippet_ends kernel source place

/-- The place is on the line break behind the second line, and so is the caret. -/
theorem line_lookup_exact_break :
    5 ≤ "ab\ncd\n".length ∧ Text.BoundsLine "ab\ncd\n".toList 5 (3, 5) ∧
      (Function.lineBounds.invoke (Kernel.ofDepth 0 0)
        (.of [.text "ab\ncd\n", .int 5])).Gives .start
          (World.start.MakesList #[.int 3, .int 5]) ∧
      ("ab\ncd\n".toList.splitOn '\n')[1]? = some ['c', 'd'] ∧
      (Function.caretSnippet.invoke (Kernel.ofDepth 0 0)
        (.of [.text "ab\ncd\n", .int 5])).Gives .start
          fun value after => value = .ofChars "cd\n  ^".toList ∧ after = .start := by
  have hplace : 5 ≤ "ab\ncd\n".length := by decide
  have hline : Text.BoundsLine "ab\ncd\n".toList 5 (3, 5) :=
    ⟨by decide, by decide, by decide, by decide, by decide, by decide⟩
  obtain ⟨start, stop, line, shown, honly, hbounds, rfl, hsplit, rfl, -, hshown⟩ :=
    line_lookup_exact hplace (Kernel.ofDepth 0 0) .start
  cases (honly (3, 5)).mp hline
  refine ⟨hplace, hline, hbounds, hsplit, Ends.mono hshown ?_⟩
  rintro _ _ ⟨rfl, rfl⟩
  exact ⟨_, rfl, rfl, rfl⟩

end Calls

end Rulebook
