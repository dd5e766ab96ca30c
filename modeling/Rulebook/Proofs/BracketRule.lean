import Rulebook.Proofs.OneChar
import Rulebook.Proofs.ParseLoop
import Rulebook.Proofs.Place
import Rulebook.Proofs.ScriptRun

/-!
# Rules for brackets

Two scripts make a pair of brackets: one opens a node where the opening character stands, the other
closes it where the closing one does. At any stage of a parse the first makes the tree deeper by a
level, and the second completes the innermost level or fails, after the bracket was consumed.
-/

namespace Rulebook

open Run Script

/-- A term stands for a pattern, or the source of one, in every world. -/
def Term.Names (term : Term) (pattern : Pattern) : Prop :=
  ∃ value : Value, value.Compiles pattern ∧ ∀ world, term.Denotes world value

theorem Term.names_source {source : String} {pattern : Pattern}
    (hcompile : Pattern.compile .extended source false (.ofLetters []) = .ok pattern) :
    (Term.datum (.text source)).Names pattern :=
  ⟨.text source, Value.compiles_text hcompile, fun _ => Term.denotes_text source⟩

/-- Opens a node of a kind at a bracket. -/
def openScript (matcher : Term) (kind : String) : List Stmt :=
  [.act (.send "self" "position" [] []) (some "pos"),
    .act (.send "self" "match" [matcher] []) (some "found"),
    .branch (.not (.present (.var "found"))) [.give (.datum .null)] [],
    .act (.send "self" "node" [.var "pos", .datum (.text kind)] []) (some "node"),
    .act (.send "self" "push" [.var "node"] []) (some "pushed"),
    .give (.var "pushed")]

/-- Closes the innermost open node, which has to be of a kind, at a bracket. -/
def closeScript (matcher : Term) (kind : String) : List Stmt :=
  [.act (.send "self" "match" [matcher] []) (some "found"),
    .branch (.present (.var "found")) [.act (.send "self" "pop" [.datum (.text kind)] []) none] [],
    .give (.datum .null)]

/-- The heading of a node that is opened at the cursor, for a text that is consumed there. -/
def Reading.opening (reading : Reading) (kind : String) (consumed : List Char) : Heading :=
  ⟨kind, [], some (reading.cursor, reading.cursor.advance consumed)⟩

/-- The level of a node that is opened at a character. -/
def Level.opened (reading : Reading) (kind : String) (char : Char) : Level :=
  ⟨⟨kind, [], some (reading.cursor, reading.cursor.advance [char])⟩, []⟩

/-- What closing a node of a kind comes to. The root is never closed. -/
def closing (kind : String) (reading : Reading) : List Level → Effect
  | inner :: level :: outer =>
    if inner.heading.label = kind then .moved ⟨reading, level.add inner.tree :: outer⟩
    else .failed (.noOpenNode kind reading.pointer)
  | _ => .failed (.noOpenNode kind reading.pointer)

variable {world : World} {id : HostId} {table : Table String Rule} {rounds depth : Nat}
  {reading : Reading} {level inner : Level} {outer levels : List Level} {label kind : String}
  {matcher : Term} {pattern : Pattern} {found : Pattern.Match} {accepts : Char → Bool} {char : Char}

theorem node_gives (hreads : world.Reads id reading) (serial : Nat) (start : Value)
    (kind : String) :
    ((Kernel.ofDepth rounds (depth + 3)).sendHost id "node"
      [.stamp serial id start, .text kind]).Gives world
      fun value after => value = .node world.forest.size ∧ ∃ span stop,
        after = world.addNode (.made world.forest.size (.text kind) (.text "") span start
          (.ofCursor stop reading.cursor)) :=
  sendHost_bound_ends hreads.plain .node _ rfl (newNode_gives hreads serial start _ _)

/-! ## The scripts at a reading -/

section Frame

variable {name : String} {value : Value}

theorem setLocal_withFrame (frame : Table String Value) :
    (world.withFrame frame).setLocal name value = world.withFrame (frame.insert name value) := rfl

theorem setLocal_setCursor (cursor : Cursor) :
    (world.setCursor id cursor).setLocal name value =
      (world.setLocal name value).setCursor id cursor := rfl

theorem setLocal_addNode (cell : NodeCell) :
    (world.addNode cell).setLocal name value = (world.setLocal name value).addNode cell := rfl

end Frame

section Scripts

variable (hreads : world.Reads id reading) (hmatcher : matcher.Names pattern)
  (htext : pattern.binary = false)

include hreads hmatcher htext

theorem act_match_none (hself : world.frame.get? "self" = some (.host id))
    (hmatch : pattern.match? (reading.input.toList.drop reading.cursor.offset) = none) :
    (act (Kernel.ofDepth rounds (depth + 2)) (.send "self" "match" [matcher] [])).Gives world
      fun value after => value = .null ∧ after = world := by
  obtain ⟨source, hcompiles, hdenotes⟩ := hmatcher
  exact act_send rfl hself (.cons (hdenotes world) .nil)
    (match_gives_null hreads hcompiles htext hmatch)

theorem act_match_found (hself : world.frame.get? "self" = some (.host id))
    (hmatch : pattern.match? (reading.input.toList.drop reading.cursor.offset) = some found) :
    (act (Kernel.ofDepth rounds (depth + 2)) (.send "self" "match" [matcher] [])).Gives world
      fun value after => (∃ serial, value = .found serial pattern found) ∧
        after = world.setCursor id (reading.cursor.advance found.text) := by
  obtain ⟨source, hcompiles, hdenotes⟩ := hmatcher
  exact act_send rfl hself (.cons (hdenotes world) .nil)
    (match_gives_found hreads hcompiles htext hmatch)

/-- Without a match the script for an opening bracket does nothing. -/
theorem openScript_skips
    (hmatch : pattern.match? (reading.input.toList.drop reading.cursor.offset) = none) :
    (callback (Kernel.ofDepth rounds (depth + 2)) (openScript matcher kind) [.host id]).Gives world
      fun value after => value = .null ∧ after = world := by
  have hframe : (world.withFrame (frameOf [.host id])).Reads id reading := hreads.congr rfl rfl
  refine callback_ends (runAll_store rfl (act_send rfl rfl .nil (position_gives hframe)) ?_)
  rintro stamp _ ⟨_, rfl⟩
  refine runAll_store rfl (act_match_none (hframe.congr rfl rfl) hmatcher htext rfl hmatch) ?_
  rintro _ _ ⟨rfl, rfl⟩
  refine runAll_branch _ (absent_look (Term.denotes_var rfl rfl)) ?_
  exact runAll_give Term.denotes_null ⟨_, rfl, rfl, rfl⟩

/-- With a match it consumes the text of the match, makes a node for it and opens that. -/
theorem openScript_pushes {post : Value → World → Prop}
    (hmatch : pattern.match? (reading.input.toList.drop reading.cursor.offset) = some found)
    (hpush : ∀ (frame : Table String Value) (cell : NodeCell),
      cell.IsNew world.forest.size (reading.opening kind found.text) .null →
      ((Kernel.ofDepth rounds (depth + 3)).sendHost id "push" [.node world.forest.size]).Gives
        (((world.withFrame frame).setCursor id (reading.cursor.advance found.text)).addNode cell)
        fun value after => post value (after.withFrame world.frame)) :
    (callback (Kernel.ofDepth rounds (depth + 3)) (openScript matcher kind) [.host id]).Gives world
      post := by
  have hframe : ∀ frame, (world.withFrame frame).Reads id reading :=
    fun _ => hreads.congr rfl rfl
  refine callback_ends (runAll_store rfl (act_send rfl rfl .nil (position_gives (hframe _))) ?_)
  rintro _ _ ⟨⟨serial, mark, rfl⟩, rfl⟩
  refine runAll_store rfl (act_match_found ((hframe _).congr rfl rfl) hmatcher htext rfl hmatch) ?_
  rintro _ _ ⟨⟨number, rfl⟩, rfl⟩
  refine runAll_branch _ (absent_look (Term.denotes_var rfl rfl)) ?_
  rw [setLocal_setCursor, setLocal_withFrame, setLocal_withFrame]
  refine runAll_store rfl (act_send rfl rfl
    (.cons (Term.denotes_var rfl rfl) (.cons (Term.denotes_text kind) .nil))
    (node_gives ((hframe _).setCursor _) serial _ kind)) ?_
  rintro _ _ ⟨rfl, span, stop, rfl⟩
  rw [setLocal_addNode, setLocal_setCursor, setLocal_withFrame]
  refine runAll_store rfl (act_send rfl rfl (.cons (Term.denotes_var rfl rfl) .nil)
    (hpush _ _ ⟨⟨rfl, rfl, ⟨span, mark, stop, rfl⟩, rfl, rfl, rfl, rfl⟩, rfl⟩)) ?_
  intro pushed after hpost
  refine runAll_give (Term.denotes_var rfl frame_setLocal_self) ?_
  exact ⟨pushed, rfl, hpost⟩

/-- Without a match the script for a closing bracket does nothing. -/
theorem closeScript_skips
    (hmatch : pattern.match? (reading.input.toList.drop reading.cursor.offset) = none) :
    (callback (Kernel.ofDepth rounds (depth + 2)) (closeScript matcher kind) [.host id]).Gives world
      fun value after => value = .null ∧ after = world := by
  have hframe : (world.withFrame (frameOf [.host id])).Reads id reading := hreads.congr rfl rfl
  refine callback_ends (runAll_store rfl (act_match_none hframe hmatcher htext rfl hmatch) ?_)
  rintro _ _ ⟨rfl, rfl⟩
  refine runAll_branch _ (present_look (Term.denotes_var rfl rfl)) ?_
  exact runAll_give Term.denotes_null ⟨_, rfl, rfl, rfl⟩

/-- With a match it consumes the text of the match and then closes. -/
theorem closeScript_pops {post : Except Fault Value → World → Prop}
    (hmatch : pattern.match? (reading.input.toList.drop reading.cursor.offset) = some found)
    (hpop : ∀ frame : Table String Value,
      ((Kernel.ofDepth rounds (depth + 2)).sendHost id "pop" [.text kind]).Ends
        ((world.withFrame frame).setCursor id (reading.cursor.advance found.text))
        fun result after => post (result.map fun _ => .null) (after.withFrame world.frame)) :
    (callback (Kernel.ofDepth rounds (depth + 2)) (closeScript matcher kind) [.host id]).Ends world
      post := by
  have hframe : (world.withFrame (frameOf [.host id])).Reads id reading := hreads.congr rfl rfl
  refine callback_ends (runAll_store rfl (act_match_found hframe hmatcher htext rfl hmatch) ?_)
  rintro _ _ ⟨⟨serial, rfl⟩, rfl⟩
  refine runAll_branch _ (present_look (Term.denotes_var rfl rfl)) ?_
  rw [setLocal_setCursor, setLocal_withFrame]
  refine runAll_drop (act_send rfl rfl (.cons (Term.denotes_text kind) .nil) (hpop _)) ?_ ?_
  · intro _ after hclosed
    exact runAll_give Term.denotes_null hclosed
  · intro fault after hrefused
    exact hrefused

end Scripts

/-! ## Opening and closing at a stage -/

/-- To push a node that was just made opens it below the innermost open node. -/
theorem push_opens {cell : NodeCell} {heading : Heading}
    (hparses : world.Parses id table ⟨reading, level :: outer⟩)
    (hnew : cell.IsNew world.forest.size heading .null) :
    ((Kernel.ofDepth rounds (depth + 2)).sendHost id "push" [.node world.forest.size]).Gives
      (world.addNode cell) fun value after => value = .node world.forest.size ∧
        after = (world.addChild (nextNode reading.root outer)
          { cell with parent := .node (nextNode reading.root outer) }).openNode reading
            world.forest.size := by
  have hadded : (world.addNode cell).Reads id reading := hparses.reads.congr rfl rfl
  have hloose : ((world.addNode cell).cell world.forest.size).parent = .null := by
    rw [cell_addNode_self]
    exact hnew.parent
  rw [← attach_addNode]
  exact push_gives hadded (hparses.innermost.addNode cell) world.forest.size hloose

theorem pop_closes (hparses : world.Parses id table ⟨reading, inner :: level :: outer⟩)
    (hkind : inner.heading.label = kind) :
    ((Kernel.ofDepth rounds (depth + 1)).sendHost id "pop" [.text kind]).Gives world
      fun _ after => after = world.closeNode reading := by
  have hbelow : openNodes reading.root (level :: outer) ≠ #[] := by simp [openNodes]
  refine Gives.mono (pop_gives hparses.reads hparses.innermost
    (hkind ▸ hparses.grows.1.label) hbelow) ?_
  rintro _ _ ⟨_, hafter⟩
  exact hafter

theorem pop_refuses (hparses : world.Parses id table ⟨reading, levels⟩)
    (hrefused : ∀ inner level outer, levels = inner :: level :: outer →
      inner.heading.label ≠ kind) :
    ((Kernel.ofDepth rounds (depth + 2)).sendHost id "pop" [.text kind]).Fails world
      fun fault after => fault = .noOpenNode kind reading.pointer ∧ after = world := by
  rcases levels with _ | ⟨inner, _ | ⟨level, outer⟩⟩
  case cons.cons =>
    exact pop_fails_other hparses.reads hparses.innermost hparses.grows.1.label
      (hrefused inner level outer rfl)
  all_goals
    refine pop_fails_alone hparses.reads ?_ kind
    rw [hparses.opened, size_openNodes]
    simp

/-! ## Applying the rules -/

/-- Applying a script calls it with the parser, and attaches the node that it gives. -/
theorem apply_script_start {body : List Stmt} {post : Except Fault Value → World → Prop}
    (hplain : world.Plain id) (hruled : world.Ruled id table)
    (hrule : table.get? label = some (.script body))
    (hrun : (do
      match ← callback (Kernel.ofDepth rounds (depth + 1)) body [.host id] with
      | .node node =>
        Parser.attachLoose (Kernel.ofDepth rounds (depth + 2)) id (.node node)
        return .node node
      | _ => return .null : Run Value).Ends world post) :
    ((Kernel.ofDepth rounds (depth + 3)).sendHost id "apply" [.text label]).Ends world post := by
  refine sendHost_ends hplain .apply [_] rfl ?_
  refine Gives.bind (get_gives hplain hruled hrule) ?_
  rintro _ world ⟨⟨serial, name, rfl⟩, rfl⟩
  exact hrun

/-- Applying a script that gives nothing and leaves the world as it was does nothing. -/
theorem apply_script_idle {body : List Stmt} (hplain : world.Plain id)
    (hruled : world.Ruled id table) (hrule : table.get? label = some (.script body))
    (hskips : (callback (Kernel.ofDepth rounds (depth + 1)) body [.host id]).Gives world
      fun value after => value = .null ∧ after = world) :
    ((Kernel.ofDepth rounds (depth + 3)).sendHost id "apply" [.text label]).Gives world
      fun value after => value = .null ∧ after = world := by
  refine apply_script_start hplain hruled hrule (Gives.bind hskips ?_)
  rintro _ world ⟨rfl, rfl⟩
  exact Gives.pure ⟨rfl, rfl⟩

section Apply

variable (hparses : world.Parses id table ⟨reading, level :: outer⟩)
  (hmatcher : matcher.Names pattern) (htext : pattern.binary = false)
  (hmatch : pattern.match? (reading.input.toList.drop reading.cursor.offset) = some found)

include hparses hmatcher htext hmatch

/-- Applying the rule for an opening bracket that matches moves the cursor behind the text of the
match and opens a new node for it below the innermost open one. -/
theorem apply_open_found (hrule : table.get? label = some (.script (openScript matcher kind))) :
    ((Kernel.ofDepth rounds (depth + 5)).sendHost id "apply" [.text label]).Gives world
      fun value after => value = .node world.forest.size ∧ ∃ cell : NodeCell,
        cell.IsNew world.forest.size (reading.opening kind found.text)
          (.node (nextNode reading.root outer)) ∧
        after = ((world.setCursor id (reading.cursor.advance found.text)).addChild
          (nextNode reading.root outer) cell).openNode reading world.forest.size := by
  have hcalled : (callback (Kernel.ofDepth rounds (depth + 3)) (openScript matcher kind)
      [.host id]).Gives world fun value after => value = .node world.forest.size ∧
        ∃ cell : NodeCell, cell.IsNew world.forest.size (reading.opening kind found.text)
            (.node (nextNode reading.root outer)) ∧
          after = ((world.setCursor id (reading.cursor.advance found.text)).addChild
            (nextNode reading.root outer) cell).openNode reading world.forest.size := by
    refine openScript_pushes hparses.reads hmatcher htext hmatch fun frame cell hnew => ?_
    have hmoved : ((world.withFrame frame).setCursor id
        (reading.cursor.advance found.text)).Parses id table
        ⟨reading.past found.text, level :: outer⟩ :=
      (hparses.setCursor (reading.cursor.advance found.text)).congr rfl rfl rfl
    refine Gives.mono (push_opens hmoved hnew) ?_
    rintro _ _ ⟨rfl, rfl⟩
    exact ⟨rfl, _, hnew.below _, rfl⟩
  refine apply_script_start hparses.reads.plain hparses.ruled hrule (Gives.bind hcalled ?_)
  rintro _ _ ⟨rfl, cell, hnew, rfl⟩
  -- opening has attached the node, so applying the rule leaves it where it is
  have hopened := (hparses.setCursor (reading.cursor.advance found.text)).openChild hnew
  have hparent := hopened.grows.1.parent
  rw [show nextNode reading.root (level :: outer) = world.forest.size from hparses.size.symm]
    at hparent
  have hattached : ∀ after : World, (after.cell world.forest.size).parent =
      .node (nextNode reading.root outer) → (after.cell world.forest.size).parent ≠ .null :=
    fun _ hnode hnull => nomatch hnode.symm.trans hnull
  refine Gives.bind (attachLoose_gives_attached _ _ (hattached _ hparent)) ?_
  rintro _ _ rfl
  exact Gives.pure ⟨rfl, cell, hnew, rfl⟩

/-- Applying the rule for a closing bracket that matches moves the cursor behind the text of the
match and closes the innermost open node, if that is of the kind. -/
theorem apply_close_closes (hrule : table.get? label = some (.script (closeScript matcher kind)))
    {around : Level} {further : List Level} (houter : outer = around :: further)
    (hkind : level.heading.label = kind) :
    ((Kernel.ofDepth rounds (depth + 4)).sendHost id "apply" [.text label]).Gives world
      fun value after => value = .null ∧
        after = (world.setCursor id (reading.cursor.advance found.text)).closeNode reading := by
  subst houter
  have hcalled : (callback (Kernel.ofDepth rounds (depth + 2)) (closeScript matcher kind)
      [.host id]).Gives world fun value after => value = .null ∧
        after = (world.setCursor id (reading.cursor.advance found.text)).closeNode reading := by
    refine closeScript_pops hparses.reads hmatcher htext hmatch fun frame => ?_
    have hmoved : ((world.withFrame frame).setCursor id
        (reading.cursor.advance found.text)).Parses id table
        ⟨reading.past found.text, level :: around :: further⟩ :=
      (hparses.setCursor (reading.cursor.advance found.text)).congr rfl rfl rfl
    refine Ends.mono (pop_closes hmoved hkind) ?_
    rintro _ _ ⟨_, rfl, rfl⟩
    exact ⟨_, rfl, rfl, rfl⟩
  refine apply_script_start hparses.reads.plain hparses.ruled hrule (Gives.bind hcalled ?_)
  rintro _ _ ⟨rfl, rfl⟩
  exact Gives.pure ⟨rfl, rfl⟩

/-- If it is not, or it is the root, applying the rule fails behind the text of the match. -/
theorem apply_close_refuses (hrule : table.get? label = some (.script (closeScript matcher kind)))
    (hrefused : outer ≠ [] → level.heading.label ≠ kind) :
    ((Kernel.ofDepth rounds (depth + 4)).sendHost id "apply" [.text label]).Fails world
      fun fault after => fault = .noOpenNode kind (reading.past found.text).pointer ∧
        after = world.setCursor id (reading.cursor.advance found.text) := by
  refine apply_script_start hparses.reads.plain hparses.ruled hrule (Fails.bind ?_)
  refine closeScript_pops hparses.reads hmatcher htext hmatch fun frame => ?_
  have hmoved : ((world.withFrame frame).setCursor id
      (reading.cursor.advance found.text)).Parses id table
      ⟨reading.past found.text, level :: outer⟩ :=
    (hparses.setCursor (reading.cursor.advance found.text)).congr rfl rfl rfl
  refine Ends.mono (pop_refuses hmoved ?_) ?_
  · rintro _ _ _ ⟨⟩
    exact hrefused nofun
  · rintro _ _ ⟨_, rfl, rfl, rfl⟩
    exact ⟨_, rfl, rfl, rfl⟩

end Apply

/-! ## What the rules do at a character -/

theorem ahead_past (reading : Reading) (levels levels' : List Level) (char : Char) :
    Stage.Ahead ⟨reading, levels⟩ ⟨reading.past [char], levels'⟩ := by
  refine ⟨rfl, ?_⟩
  simp [Reading.past]

section Acts

variable (hmatcher : matcher.Names pattern) (htakes : pattern.TakesOne accepts)
  (hchar : reading.input.toList[reading.cursor.offset]? = some char)

include hmatcher htakes hchar

theorem acts_open_idle (hrule : table.get? label = some (.script (openScript matcher kind)))
    (haccepts : accepts char = false) :
    Acts (Kernel.ofDepth rounds (depth + 4)) id table label ⟨reading, levels⟩ .idle := by
  refine ⟨nofun, fun world hparses => ?_⟩
  refine Gives.mono (apply_script_idle hparses.reads.plain hparses.ruled hrule (openScript_skips
    hparses.reads hmatcher htakes.text (htakes.skips_at hchar haccepts))) ?_
  rintro _ _ ⟨rfl, rfl⟩
  exact ⟨rfl, hparses⟩

theorem acts_close_idle (hrule : table.get? label = some (.script (closeScript matcher kind)))
    (haccepts : accepts char = false) :
    Acts (Kernel.ofDepth rounds (depth + 4)) id table label ⟨reading, levels⟩ .idle := by
  refine ⟨nofun, fun world hparses => ?_⟩
  refine Gives.mono (apply_script_idle hparses.reads.plain hparses.ruled hrule (closeScript_skips
    hparses.reads hmatcher htakes.text (htakes.skips_at hchar haccepts))) ?_
  rintro _ _ ⟨rfl, rfl⟩
  exact ⟨rfl, hparses⟩

/-- An opening bracket makes the tree deeper by a level. -/
theorem acts_open (hrule : table.get? label = some (.script (openScript matcher kind)))
    (haccepts : accepts char = true) :
    Acts (Kernel.ofDepth rounds (depth + 5)) id table label ⟨reading, level :: outer⟩
      (.moved ⟨reading.past [char], .opened reading kind char :: level :: outer⟩) := by
  obtain ⟨found, hmatch, hfound⟩ := htakes.takes_at hchar haccepts
  refine ⟨fun next heq => ?_, fun world hparses => ?_⟩
  · cases heq
    exact ahead_past reading _ _ char
  · refine Gives.mono (apply_open_found hparses hmatcher htakes.text hmatch hrule) ?_
    rw [hfound]
    rintro _ _ ⟨rfl, cell, hnew, rfl⟩
    exact ⟨trivial, (hparses.setCursor (reading.cursor.advance [char])).openChild hnew⟩

/-- A closing bracket closes the innermost open node or fails. -/
theorem acts_close (hrule : table.get? label = some (.script (closeScript matcher kind)))
    (haccepts : accepts char = true) :
    Acts (Kernel.ofDepth rounds (depth + 4)) id table label ⟨reading, level :: outer⟩
      (closing kind (reading.past [char]) (level :: outer)) := by
  obtain ⟨found, hmatch, hfound⟩ := htakes.takes_at hchar haccepts
  by_cases hcloses : outer ≠ [] ∧ level.heading.label = kind
  · obtain ⟨around, further, rfl⟩ := List.exists_cons_of_ne_nil hcloses.1
    rw [closing, if_pos hcloses.2]
    refine ⟨fun next heq => ?_, fun world hparses => ?_⟩
    · cases heq
      exact ahead_past reading _ _ char
    · refine Gives.mono (apply_close_closes hparses hmatcher htakes.text hmatch hrule rfl
        hcloses.2) ?_
      rw [hfound]
      rintro _ _ ⟨rfl, rfl⟩
      exact ⟨trivial, (hparses.setCursor (reading.cursor.advance [char])).close⟩
  · rw [not_and] at hcloses
    have hfails : closing kind (reading.past [char]) (level :: outer) =
        .failed (.noOpenNode kind (reading.past [char]).pointer) := by
      cases outer with
      | nil => rfl
      | cons around further => rw [closing, if_neg (hcloses nofun)]
    rw [hfails]
    refine ⟨nofun, fun world hparses => ?_⟩
    refine Fails.mono (apply_close_refuses hparses hmatcher htakes.text hmatch hrule hcloses) ?_
    rw [hfound]
    rintro _ _ ⟨rfl, _⟩
    rfl

end Acts

end Rulebook
