import Rulebook.Proofs.RuleTable
import Rulebook.Proofs.Tree

/-!
# Applying a captured pattern

Applying a rule that was captured from a pattern is all or nothing. Without a match, and with an
empty one, the world is as it was; a match that is not empty moves the cursor behind its text and
puts one new node below the innermost open one.
-/

namespace Rulebook

open Run

/-- The heading of a node that begins at the cursor and takes up a text. -/
def Reading.heading (reading : Reading) (label : String) (val : List Char) : Heading :=
  ⟨label, val, some (reading.cursor, reading.cursor.advance val)⟩

/-- The node that a pattern rule makes of what its pattern found, which its notes keep. -/
def NodeCell.captured (id : NodeId) (kind position : Value) (serial : Nat) (pattern : Pattern)
    (found : Pattern.Match) : NodeCell :=
  { NodeCell.fresh id kind (.ofChars found.text) position with
    ownNotes := Record.write .empty (.text "match") (.text "match") (.found serial pattern found) }

variable {world : World} {id : HostId} {reading : Reading} {table : Table String Rule}
  {rounds depth : Nat} {below : Array Value} {top : NodeId} {label : String} {pattern : Pattern}
  {found : Pattern.Match}

/-! ## The rule -/

theorem group_gives (htext : pattern.binary = false) (serial : Nat) :
    ((Kernel.ofDepth rounds (depth + 1)).send (.found serial pattern found) "group"
      [.int 0]).Gives world fun value after => value = .ofChars found.text ∧ after = world := by
  intro start
  refine ⟨.ok (pattern.valueOf found.text), world, start + 1, rfl, _, rfl, ?_, rfl⟩
  rw [Pattern.valueOf, htext]
  rfl

theorem isSet_ofChars_look (chars : List Char) (serial : Nat) :
    (isSet (.ofChars chars)).outcome (world.withSerial serial) =
      (.ok (!chars.isEmpty), world.withSerial serial) := by
  have hempty : (String.ofList chars).isEmpty = chars.isEmpty := by
    cases chars <;> simp
  exact congrArg (fun empty => (Except.ok (!empty), world.withSerial serial)) hempty

section Rule

variable {kind source : Value}

/-- A match of nothing is as good as none. -/
def Pattern.Idle (pattern : Pattern) (text : List Char) : Prop :=
  ∀ found, pattern.match? text = some found → found.text = []

theorem runPatternRule_idle (hreads : world.Reads id reading) (hcompiles : source.Compiles pattern)
    (htext : pattern.binary = false)
    (hidle : pattern.Idle (reading.input.toList.drop reading.cursor.offset)) :
    (runPatternRule (Kernel.ofDepth rounds (depth + 2)) kind source (.host id)).Gives
      world fun value after => value = .null ∧ after = world := by
  refine Gives.bind (position_gives hreads) ?_
  rintro _ world ⟨⟨mark, start, rfl⟩, rfl⟩
  cases hmatch : pattern.match? (reading.input.toList.drop reading.cursor.offset) with
  | none =>
      refine Gives.bind (match_gives_null hreads hcompiles htext hmatch) ?_
      rintro _ world ⟨rfl, rfl⟩
      exact Gives.pure ⟨rfl, rfl⟩
  | some found =>
      refine Gives.bind (match_gives_found hreads hcompiles htext hmatch) ?_
      rintro _ after ⟨⟨serial, rfl⟩, hafter⟩
      -- an empty match goes through the consuming path and must leave no trace there
      rw [hidle found hmatch, Cursor.advance_nil, World.setCursor_self hreads.cursor] at hafter
      subst hafter
      refine Gives.bind (group_gives htext serial) ?_
      rintro _ world ⟨rfl, rfl⟩
      refine Ends.look _ (isSet_ofChars_look found.text) ?_
      rw [hidle found hmatch]
      exact Gives.pure ⟨rfl, rfl⟩

theorem define_gives (cell : NodeCell) (hnotes : cell.notes = .record (.notes world.forest.size))
    (hchildren : cell.children = .list (.children world.forest.size))
    (hextras : cell.extras = .empty) (name : String) (value : Value) :
    ((Kernel.ofDepth rounds (depth + 1)).send (.node world.forest.size) "define"
      [.text name, value]).Gives (world.addNode cell) fun _ after =>
        after = world.addNode { cell with
          ownNotes := cell.ownNotes.write (.text name) (.text name) value } := by
  have hcell := cell_addNode_self world cell
  have hplain : (world.addNode cell).PlainNode world.forest.size := by
    refine ⟨?_, ?_, ?_, ?_⟩
    · rw [World.addNode, Forest.size_add]
      exact Nat.lt_succ_self _
    · rw [hcell]; exact hchildren
    · rw [hcell]; exact hnotes
    · rw [hcell]; exact hextras
  have hbind : (Args.of [.text name, value]).bind [.needed "key", .needed "value"] =
      pure [.text name, value] := Args.bind_of_length rfl
  refine sendNode_ends (by decide) (hplain.methods _) _ ?_
  simp only [callNode, hbind, pure_bind]
  refine Ends.look cell (fun serial => ?_) ?_
  · exact congrArg (fun cell => (Except.ok cell, (world.addNode _).withSerial serial)) hcell
  · rw [hnotes]
    refine Ends.change () ((world.addNode cell).changeRecord (.notes world.forest.size) fun notes =>
      notes.write (.text name) (.text name) value) (fun _ => rfl) ?_
    rw [changeRecord_addNode]
    exact Gives.pure (by rw [hnotes])

/-- A pattern that finds more than nothing moves the cursor behind it and makes a node of it. -/
theorem runPatternRule_makes (hreads : world.Reads id reading) (hcompiles : source.Compiles pattern)
    (htext : pattern.binary = false)
    (hmatch : pattern.match? (reading.input.toList.drop reading.cursor.offset) = some found)
    (hfound : found.text ≠ []) :
    (runPatternRule (Kernel.ofDepth rounds (depth + 3)) kind source (.host id)).Gives
      world fun value after => value = .node world.forest.size ∧ ∃ span start stop serial,
        after = (world.setCursor id (reading.cursor.advance found.text)).addNode
          (.captured world.forest.size kind (.span span (.ofCursor start reading.cursor)
            (.ofCursor stop (reading.cursor.advance found.text))) serial pattern found) := by
  refine Gives.bind (position_gives hreads) ?_
  rintro _ world ⟨⟨mark, start, rfl⟩, rfl⟩
  refine Gives.bind (match_gives_found hreads hcompiles htext hmatch) ?_
  rintro _ _ ⟨⟨serial, rfl⟩, rfl⟩
  have hmoved := hreads.setCursor (reading.cursor.advance found.text)
  refine Gives.bind (group_gives htext serial) ?_
  rintro _ _ ⟨rfl, rfl⟩
  refine Ends.look _ (isSet_ofChars_look found.text) ?_
  rw [if_pos (by simpa using hfound)]
  refine Gives.bind (group_gives htext serial) ?_
  rintro _ _ ⟨rfl, rfl⟩
  refine Gives.bind (sendHost_ends hmoved.plain .node [_, _, _] rfl
    (newNode_gives hmoved mark _ _ _)) ?_
  rintro _ _ ⟨rfl, span, stop, rfl⟩
  refine Gives.bind (define_gives _ rfl rfl rfl "match" _) ?_
  rintro _ _ rfl
  exact Gives.pure ⟨rfl, span, start, stop, serial, rfl⟩

theorem runPatternRule_found (hreads : world.Reads id reading) (hcompiles : source.Compiles pattern)
    (htext : pattern.binary = false)
    (hmatch : pattern.match? (reading.input.toList.drop reading.cursor.offset) = some found)
    (hfound : found.text ≠ []) :
    (runPatternRule (Kernel.ofDepth rounds (depth + 3)) (.text label) source (.host id)).Gives
      world fun value after => value = .node world.forest.size ∧ ∃ cell : NodeCell,
        cell.IsNew world.forest.size (reading.heading label found.text) .null ∧
        after = (world.setCursor id (reading.cursor.advance found.text)).addNode cell := by
  refine Gives.mono (runPatternRule_makes hreads hcompiles htext hmatch hfound) ?_
  rintro _ _ ⟨rfl, span, start, stop, serial, rfl⟩
  exact ⟨rfl, _, ⟨⟨rfl, rfl, ⟨span, start, stop, rfl⟩, rfl, rfl, rfl, rfl⟩, rfl⟩, rfl⟩

end Rule

/-! ## Applying it -/

section Apply

variable (hreads : world.Reads id reading) (hruled : world.Ruled id table)
  (hrule : table.get? label = some (.captured pattern))

include hreads hruled hrule

/-- Applying a pattern that does not match, or only nothing, changes nothing. -/
theorem apply_captured_idle
    (hidle : pattern.Idle (reading.input.toList.drop reading.cursor.offset)) :
    ((Kernel.ofDepth rounds (depth + 4)).sendHost id "apply" [.text label]).Gives world
      fun value after => value = .null ∧ after = world := by
  refine sendHost_ends hreads.plain .apply [_] rfl ?_
  refine Gives.bind (get_gives hreads.plain hruled hrule) ?_
  rintro _ world ⟨⟨_, _, source, rfl, htext, hcompiles⟩, rfl⟩
  rw [call_patternRule]
  refine Gives.bind (runPatternRule_idle hreads hcompiles htext hidle) ?_
  rintro _ world ⟨rfl, rfl⟩
  exact Gives.pure ⟨rfl, rfl⟩

/-- Applying a pattern that matches moves the cursor behind the text of the match, makes one new
node with that text, and attaches it. -/
theorem apply_captured_start {post : Except Fault Value → World → Prop}
    (hmatch : pattern.match? (reading.input.toList.drop reading.cursor.offset) = some found)
    (hfound : found.text ≠ [])
    (hattach : ∀ cell : NodeCell,
      cell.IsNew world.forest.size (reading.heading label found.text) .null →
      (do
        Parser.attachLoose (Kernel.ofDepth rounds (depth + 4)) id (.node world.forest.size)
        return .node world.forest.size : Run Value).Ends
          ((world.setCursor id (reading.cursor.advance found.text)).addNode cell) post) :
    ((Kernel.ofDepth rounds (depth + 5)).sendHost id "apply" [.text label]).Ends world post := by
  refine sendHost_ends hreads.plain .apply [_] rfl ?_
  refine Gives.bind (get_gives hreads.plain hruled hrule) ?_
  rintro _ world ⟨⟨_, _, source, rfl, htext, hcompiles⟩, rfl⟩
  rw [call_patternRule]
  refine Gives.bind (runPatternRule_found hreads hcompiles htext hmatch hfound) ?_
  rintro _ _ ⟨rfl, cell, hcell, rfl⟩
  exact hattach cell hcell

/-- The new node goes below the innermost open one. -/
theorem apply_captured_found (hopened : world.Opened reading below top)
    (hmatch : pattern.match? (reading.input.toList.drop reading.cursor.offset) = some found)
    (hfound : found.text ≠ []) :
    ((Kernel.ofDepth rounds (depth + 5)).sendHost id "apply" [.text label]).Gives world
      fun value after => value = .node world.forest.size ∧ ∃ cell : NodeCell,
        cell.IsNew world.forest.size (reading.heading label found.text) (.node top) ∧
        after = (world.setCursor id (reading.cursor.advance found.text)).addChild top cell := by
  refine apply_captured_start hreads hruled hrule hmatch hfound fun cell hcell => ?_
  have hmoved := hreads.setCursor (reading.cursor.advance found.text)
  refine Gives.bind (attachNew_gives hmoved (hopened.setCursor _) cell hcell.parent) ?_
  rintro _ _ rfl
  exact Gives.pure ⟨rfl, _, hcell.below (.node top), rfl⟩

end Apply

end Rulebook
