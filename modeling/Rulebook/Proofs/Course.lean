import Rulebook.Proofs.BracketRule
import Rulebook.Proofs.Tokenizer

/-!
# The course of a parse

What a parse by captured patterns and by rules for brackets comes to is settled by the rules and the
text alone: a rule that is tried at a place does nothing, moves on, or fails there, and which of it
depends on the text from that place on and on the levels that are open. A parser takes this course
whatever there was before it began, it ends where the course ends, also if that is a fault, and
leaves alone what was there before.
-/

namespace Rulebook

open Run Script

/-! ## The course -/

/-- What a rule does that is a captured pattern or a script for brackets. -/
inductive Deed
  /-- Makes a leaf of what a pattern matches. -/
  | takes (pattern : Pattern)
  /-- Opens a node of a kind where a pattern matches. -/
  | opens (pattern : Pattern) (kind : String)
  /-- Closes the innermost open node, which has to be of a kind, where a pattern matches. -/
  | closes (pattern : Pattern) (kind : String)

/-- A rule does a deed. -/
inductive Rule.Does : Rule → Deed → Prop
  | captured (pattern : Pattern) : Does (.captured pattern) (.takes pattern)
  | opening {matcher : Term} {pattern : Pattern} {kind : String} (hmatcher : matcher.Names pattern)
      (htext : pattern.binary = false) :
      Does (.script (openScript matcher kind)) (.opens pattern kind)
  | closing {matcher : Term} {pattern : Pattern} {kind : String} (hmatcher : matcher.Names pattern)
      (htext : pattern.binary = false) :
      Does (.script (closeScript matcher kind)) (.closes pattern kind)

/-- How far a parse has come, whichever its nodes are. -/
structure Standing where
  cursor : Cursor
  innermost : Level
  /-- The levels around the innermost one, the root last. -/
  around : List Level

/-- What comes of an attempt: it ends with an answer, or fails. Either way it leaves the parse
somewhere. -/
inductive Turn
  | ended (standing : Standing) (answer : Bool)
  | failed (standing : Standing) (fault : Fault)

namespace Standing

/-- The beginning of a text, with the root alone open. -/
def start : Standing := ⟨.start, .root, []⟩

/-- What the cursor points at in an input. -/
def pointer (standing : Standing) (input : String) : Pointer where
  line := toString standing.cursor.line
  column := toString standing.cursor.column
  snippet := Text.caretSnippet input.toList standing.cursor.offset

/-- The standing behind a consumed text. -/
def past (standing : Standing) (consumed : List Char) : Standing :=
  { standing with cursor := standing.cursor.advance consumed }

/-- The standing behind a leaf. -/
def addLeaf (standing : Standing) (label : String) (val : List Char) : Standing where
  cursor := standing.cursor.advance val
  innermost := standing.innermost.add
    (.leaf ⟨label, val, some (standing.cursor, standing.cursor.advance val)⟩)
  around := standing.around

/-- The standing behind a text that opens a node of a kind. -/
def openAt (standing : Standing) (kind : String) (consumed : List Char) : Standing where
  cursor := standing.cursor.advance consumed
  innermost := ⟨⟨kind, [], some (standing.cursor, standing.cursor.advance consumed)⟩, []⟩
  around := standing.innermost :: standing.around

/-- The standing with the innermost open node closed, if it is of a kind and not the root. -/
def close? (standing : Standing) (kind : String) : Option Standing :=
  match standing.around with
  | [] => none
  | level :: further =>
    if standing.innermost.heading.label = kind then
      some ⟨standing.cursor, level.add standing.innermost.tree, further⟩
    else none

theorem close?_some {standing : Standing} {kind : String} {level : Level} {further : List Level}
    (haround : standing.around = level :: further)
    (hkind : standing.innermost.heading.label = kind) :
    standing.close? kind =
      some ⟨standing.cursor, level.add standing.innermost.tree, further⟩ := by
  rw [close?, haround]
  exact if_pos hkind

theorem close?_none {standing : Standing} {kind : String}
    (hrefused : standing.around ≠ [] → standing.innermost.heading.label ≠ kind) :
    standing.close? kind = none := by
  rw [close?]
  split
  next => rfl
  next haround => exact if_neg (hrefused (by rw [haround]; exact List.cons_ne_nil _ _))

/-- The complaint about what is at the cursor. -/
def complaint (standing : Standing) (input : String) : Fault :=
  match input.toList[standing.cursor.offset]? with
  | some char =>
    .unexpectedCharacter (Text.quoted (String.ofList [char])) (standing.pointer input)
  | none => .noCharacter

/-- How far it is with given numbers for the root and the list of open nodes. -/
def stage (standing : Standing) (input : String) (root stack : Nat) : Stage :=
  ⟨⟨input, standing.cursor, root, stack⟩, standing.innermost :: standing.around⟩

end Standing

/-- What comes of a deed under a label, which answers whether it gave a node. -/
def Deed.turn (input label : String) (standing : Standing) : Deed → Turn
  | .takes pattern =>
    match pattern.match? (input.toList.drop standing.cursor.offset) with
    | none => .ended standing false
    | some found =>
      if found.text = [] then .ended standing false
      else .ended (standing.addLeaf label found.text) true
  | .opens pattern kind =>
    match pattern.match? (input.toList.drop standing.cursor.offset) with
    | none => .ended standing false
    | some found => .ended (standing.openAt kind found.text) true
  | .closes pattern kind =>
    match pattern.match? (input.toList.drop standing.cursor.offset) with
    | none => .ended standing false
    | some found =>
      match (standing.past found.text).close? kind with
      | some closed => .ended closed false
      | none =>
        .failed (standing.past found.text)
          (.noOpenNode kind ((standing.past found.text).pointer input))

/-- Tries deeds in order until one moves the cursor, and answers whether one did. -/
def tryDeeds (input : String) : List (String × Deed) → Standing → Turn
  | [], standing => .ended standing false
  | (label, deed) :: rest, standing =>
    match deed.turn input label standing with
    | .failed after fault => .failed after fault
    | .ended after node =>
      if standing.cursor.offset < after.cursor.offset then .ended after true
      else if node then .failed after (.idleRule label)
      else tryDeeds input rest after

/-- Takes a step, which fails where no deed moves the cursor. -/
def takeStep (input : String) (deeds : List (String × Deed)) (standing : Standing) : Turn :=
  match tryDeeds input deeds standing with
  | .ended after false => .failed after (after.complaint input)
  | turn => turn

/-- Takes steps while there is input left, at most `fuel` times. -/
def takeSteps (input : String) (deeds : List (String × Deed)) : Nat → Standing → Turn
  | 0, standing => .failed standing .outOfFuel
  | fuel + 1, standing =>
    if standing.cursor.offset < input.toList.length then
      match takeStep input deeds standing with
      | .ended after _ => takeSteps input deeds fuel after
      | turn => turn
    else .ended standing true

/-- The course of a parse with a given number of steps. -/
def course (input : String) (deeds : List (String × Deed)) (fuel : Nat) : Turn :=
  match takeSteps input deeds fuel .start with
  | .ended standing _ =>
    if standing.around.isEmpty then .ended standing true
    else .failed standing (.unclosedNode standing.innermost.heading.label)
  | turn => turn

/-! ## What a parse leaves alone -/

/-- One world comes from another without a change to what was there, but for what a parser reads and
what it builds. -/
structure World.SameBefore (world after : World) (id : HostId) : Prop where
  nodes : ∀ node < world.forest.size, after.cell node = world.cell node
  stackLists : ∀ number < world.openStacks.size,
    after.items (.stack number) = world.items (.stack number)
  lists : after.lists = world.lists
  records : after.records = world.records
  hosts : ∀ other ≠ id, after.host other = world.host other
  host : ∃ input cursor root stack,
    after.host id = { world.host id with input, cursor, root, stack }

namespace World.SameBefore

variable {base world : World} {id : HostId}

theorem restart (world : World) (id : HostId) (input : Value) :
    world.SameBefore (world.restart id input) id where
  nodes node hnode := by
    change (world.forest.add _).cell node = _
    rw [Forest.cell_add, if_neg (Nat.ne_of_lt hnode)]
    rfl
  stackLists number hnumber := by
    change (world.openStacks.push _).getD number #[] = world.openStacks.getD number #[]
    rw [Array.getD_eq_getD_getElem?, Array.getD_eq_getD_getElem?, Array.getElem?_push,
      if_neg (Nat.ne_of_lt hnumber)]
  lists := rfl
  records := rfl
  hosts other hother := by
    rw [World.restart, host_changeHost, if_neg fun h => hother h.1.symm]
    rfl
  host := by
    rw [World.restart, host_changeHost]
    split
    next => exact ⟨_, _, _, _, rfl⟩
    next => exact ⟨_, _, _, _, rfl⟩

theorem setCursor (hsame : base.SameBefore world id) (cursor : Cursor) :
    base.SameBefore (world.setCursor id cursor) id where
  nodes := hsame.nodes
  stackLists := hsame.stackLists
  lists := hsame.lists
  records := hsame.records
  hosts other hother := by
    rw [World.setCursor, host_changeHost, if_neg fun h => hother h.1.symm]
    exact hsame.hosts other hother
  host := by
    obtain ⟨_, _, _, _, hhost⟩ := hsame.host
    rw [World.setCursor, host_changeHost, hhost]
    split
    next => exact ⟨_, _, _, _, rfl⟩
    next => exact ⟨_, _, _, _, rfl⟩

theorem addChild (hsame : base.SameBefore world id) {parent : Nat} {cell : NodeCell}
    (hparent : base.forest.size ≤ parent) (hpresent : parent < world.forest.size) :
    base.SameBefore (world.addChild parent cell) id where
  nodes node hnode := by
    rw [cell_addChild hpresent, if_neg (by omega), if_neg (by omega)]
    exact hsame.nodes node hnode
  stackLists := hsame.stackLists
  lists := hsame.lists
  records := hsame.records
  hosts := hsame.hosts
  host := hsame.host

/-- A change of a list of open nodes that was not there before. -/
theorem changeStack (hsame : base.SameBefore world id) {number : Nat}
    (hnumber : base.openStacks.size ≤ number) (change : Array Value → Array Value) :
    base.SameBefore (world.changeItems (.stack number) change) id where
  nodes := hsame.nodes
  stackLists other hother := by
    classical
    rw [items_changeItems, if_neg]
    · exact hsame.stackLists other hother
    · rintro ⟨⟨⟩, _⟩
      exact absurd hother (Nat.not_lt.mpr hnumber)
  lists := hsame.lists
  records := hsame.records
  hosts := hsame.hosts
  host := hsame.host

end World.SameBefore

/-! ## Taking the course -/

/-- A parse that began in a world is at a standing, and what was there before is as it was. -/
structure World.Pursues (base : World) (id : HostId) (table : Table String Rule) (input : String)
    (standing : Standing) (world : World) : Prop where
  parses : world.Parses id table (standing.stage input base.forest.size base.openStacks.size)
  same : base.SameBefore world id

/-- A run takes a turn: it ends or fails alike, in a world that is where the turn leaves the
parse. -/
def Turn.Taken {α : Type} (turn : Turn) (reached : Standing → World → Prop)
    (answers : Bool → α → Prop) (result : Except Fault α) (after : World) : Prop :=
  match turn with
  | .ended standing answer => (∃ value, result = .ok value ∧ answers answer value) ∧
      reached standing after
  | .failed standing fault => result = .error fault ∧ reached standing after

theorem taken_fail {α : Type} {reached : Standing → World → Prop} {answers : Bool → α → Prop}
    {standing : Standing} {fault : Fault} {world : World} (hreached : reached standing world) :
    (Run.fail fault : Run α).Ends world ((Turn.failed standing fault).Taken reached answers) :=
  fun serial => ⟨_, _, serial, rfl, rfl, hreached⟩

theorem Turn.Taken.exists_reached {α : Type} {turn : Turn} {reached : Standing → World → Prop}
    {answers : Bool → α → Prop} {result : Except Fault α} {after : World}
    (htaken : turn.Taken reached answers result after) : ∃ standing, reached standing after := by
  cases turn with
  | ended standing => exact ⟨standing, htaken.2⟩
  | failed standing => exact ⟨standing, htaken.2⟩

/-- What follows a turn begins where the turn ended, and a fault is where the run ends. -/
theorem Turn.bind {α β : Type} {turn : Turn} {reached : Standing → World → Prop}
    {answers : Bool → α → Prop} {first : Run α} {next : α → Run β} {world : World}
    {post : Except Fault β → World → Prop} (hfirst : first.Ends world (turn.Taken reached answers))
    (hended : ∀ standing answer, turn = .ended standing answer → ∀ value after,
      answers answer value → reached standing after → (next value).Ends after post)
    (hfailed : ∀ standing fault, turn = .failed standing fault → ∀ after,
      reached standing after → post (.error fault) after) :
    (first >>= next).Ends world post := by
  refine Ends.bind hfirst ?_ ?_
  · intro value after htaken
    cases turn with
    | ended standing answer =>
        obtain ⟨⟨_, ⟨⟩, hanswer⟩, hafter⟩ := htaken
        exact hended standing answer rfl value after hanswer hafter
    | failed => cases htaken.1
  · intro fault after htaken
    cases turn with
    | ended =>
        obtain ⟨⟨_, ⟨⟩, _⟩, _⟩ := htaken
    | failed standing =>
        obtain ⟨⟨⟩, hafter⟩ := htaken
        exact hfailed standing fault rfl after hafter

/-- A value is a node, or it is null. -/
def Value.IsNodeOrNull : Bool → Value → Prop
  | true, value => ∃ node, value = .node node
  | false, value => value = .null

/-- The rules of a table do deeds, in its order. -/
structure Table.Does (table : Table String Rule) (deeds : List (String × Deed)) : Prop where
  labels : deeds.map Prod.fst = table.keys
  does : ∀ named ∈ deeds, ∃ rule, table.get? named.1 = some rule ∧ rule.Does named.2

theorem Table.Does.exists_deed {table : Table String Rule} {deeds : List (String × Deed)}
    (hdoes : table.Does deeds) {label : String} {rule : Rule}
    (hrule : table.get? label = some rule) : ∃ deed, rule.Does deed := by
  have hlabel : label ∈ deeds.map Prod.fst := by
    rw [hdoes.labels]
    exact List.mem_map_of_mem (Table.mem_of_get? hrule)
  obtain ⟨named, hnamed, rfl⟩ := List.mem_map.mp hlabel
  obtain ⟨other, hother, hdeed⟩ := hdoes.does named hnamed
  exact ⟨named.2, Option.some.inj (hrule.symm.trans hother) ▸ hdeed⟩

theorem le_nextNode (root : Nat) (levels : List Level) : root ≤ nextNode root levels := by
  induction levels with
  | nil => exact Nat.le_refl root
  | cons level outer ih =>
      rw [nextNode_cons]
      omega

section Course

variable {base world : World} {id : HostId} {table : Table String Rule} {input label : String}
  {standing : Standing} {deeds : List (String × Deed)} {deed : Deed} {rule : Rule}
  {rounds depth : Nat}

namespace World.Pursues

variable (hpursues : base.Pursues id table input standing world)

include hpursues

theorem setCursor (consumed : List Char) :
    base.Pursues id table input (standing.past consumed)
      (world.setCursor id (standing.cursor.advance consumed)) where
  parses := hpursues.parses.setCursor _
  same := hpursues.same.setCursor _

/-- A new child of the innermost open node is not among what was there before. -/
theorem addChild (cell : NodeCell) :
    base.SameBefore (world.addChild (nextNode base.forest.size standing.around) cell) id :=
  hpursues.same.addChild (le_nextNode _ _) hpursues.parses.top_lt

theorem openChild {cell : NodeCell} {heading : Heading}
    (hnew : cell.IsNew world.forest.size heading
      (.node (nextNode base.forest.size standing.around))) :
    base.Pursues id table input
      ⟨standing.cursor, ⟨heading, []⟩, standing.innermost :: standing.around⟩
      ((world.addChild (nextNode base.forest.size standing.around) cell).openNode
        (standing.stage input base.forest.size base.openStacks.size).reading
        world.forest.size) where
  parses := hpursues.parses.openChild hnew
  same := (hpursues.addChild cell).changeStack (Nat.le_refl _) _

theorem addLeaf {cell : NodeCell} {heading : Heading}
    (hnew : cell.IsNew world.forest.size heading
      (.node (nextNode base.forest.size standing.around))) :
    base.Pursues id table input
      { standing with innermost := standing.innermost.add (.leaf heading) }
      (world.addChild (nextNode base.forest.size standing.around) cell) where
  parses := hpursues.parses.addLeaf hnew
  same := hpursues.addChild cell

theorem close {level : Level} {further : List Level} (haround : standing.around = level :: further) :
    base.Pursues id table input
      ⟨standing.cursor, level.add standing.innermost.tree, further⟩
      (world.closeNode (standing.stage input base.forest.size base.openStacks.size).reading) where
  parses := by
    have hparses := hpursues.parses
    rw [Standing.stage, haround] at hparses
    exact hparses.close
  same := hpursues.same.changeStack (Nat.le_refl _) _

end World.Pursues

/-! ## Rules -/

theorem apply_takes {pattern : Pattern} (hpursues : base.Pursues id table input standing world)
    (hrule : table.get? label = some (.captured pattern)) :
    ((Kernel.ofDepth rounds (depth + 5)).sendHost id "apply" [.text label]).Ends world
      ((Deed.turn input label standing (.takes pattern)).Taken (base.Pursues id table input)
        Value.IsNodeOrNull) := by
  have hparses := hpursues.parses
  have hidle : pattern.Idle (input.toList.drop standing.cursor.offset) →
      ((Kernel.ofDepth rounds (depth + 5)).sendHost id "apply" [.text label]).Ends world
        ((Turn.ended standing false).Taken (base.Pursues id table input) Value.IsNodeOrNull) := by
    intro hidle
    refine Ends.mono (apply_captured_idle hparses.reads hparses.ruled hrule hidle) ?_
    rintro _ _ ⟨_, rfl, rfl, rfl⟩
    exact ⟨⟨_, rfl, rfl⟩, hpursues⟩
  rw [Deed.turn]
  split
  next hmatch => exact hidle fun found hfound => nomatch hmatch.symm.trans hfound
  next found hmatch =>
    split
    next hempty => exact hidle fun other hother => Option.some.inj (hmatch.symm.trans hother) ▸ hempty
    next hfound =>
      refine Ends.mono (apply_captured_found hparses.reads hparses.ruled hrule hparses.innermost
        hmatch hfound) ?_
      rintro _ _ ⟨_, rfl, rfl, cell, hnew, rfl⟩
      exact ⟨⟨_, rfl, _, rfl⟩, (hpursues.setCursor found.text).addLeaf hnew⟩

theorem apply_opens {matcher : Term} {pattern : Pattern} {kind : String}
    (hmatcher : matcher.Names pattern) (htext : pattern.binary = false)
    (hpursues : base.Pursues id table input standing world)
    (hrule : table.get? label = some (.script (openScript matcher kind))) :
    ((Kernel.ofDepth rounds (depth + 5)).sendHost id "apply" [.text label]).Ends world
      ((Deed.turn input label standing (.opens pattern kind)).Taken (base.Pursues id table input)
        Value.IsNodeOrNull) := by
  have hparses := hpursues.parses
  rw [Deed.turn]
  split
  next hmatch =>
    refine Ends.mono (apply_script_idle hparses.reads.plain hparses.ruled hrule
      (openScript_skips hparses.reads hmatcher htext hmatch)) ?_
    rintro _ _ ⟨_, rfl, rfl, rfl⟩
    exact ⟨⟨_, rfl, rfl⟩, hpursues⟩
  next found hmatch =>
    refine Ends.mono (apply_open_found hparses hmatcher htext hmatch hrule) ?_
    rintro _ _ ⟨_, rfl, rfl, cell, hnew, rfl⟩
    exact ⟨⟨_, rfl, _, rfl⟩, (hpursues.setCursor found.text).openChild hnew⟩

theorem apply_closes {matcher : Term} {pattern : Pattern} {kind : String}
    (hmatcher : matcher.Names pattern) (htext : pattern.binary = false)
    (hpursues : base.Pursues id table input standing world)
    (hrule : table.get? label = some (.script (closeScript matcher kind))) :
    ((Kernel.ofDepth rounds (depth + 5)).sendHost id "apply" [.text label]).Ends world
      ((Deed.turn input label standing (.closes pattern kind)).Taken (base.Pursues id table input)
        Value.IsNodeOrNull) := by
  have hparses := hpursues.parses
  rw [Deed.turn]
  split
  next hmatch =>
    refine Ends.mono (apply_script_idle hparses.reads.plain hparses.ruled hrule
      (closeScript_skips hparses.reads hmatcher htext hmatch)) ?_
    rintro _ _ ⟨_, rfl, rfl, rfl⟩
    exact ⟨⟨_, rfl, rfl⟩, hpursues⟩
  next found hmatch =>
    have hmoved := hpursues.setCursor found.text
    by_cases hcloses : standing.around ≠ [] ∧ standing.innermost.heading.label = kind
    · obtain ⟨level, further, haround⟩ := List.exists_cons_of_ne_nil hcloses.1
      rw [@Standing.close?_some (standing.past found.text) kind level further haround hcloses.2]
      refine Ends.mono (apply_close_closes hparses hmatcher htext hmatch hrule haround
        hcloses.2) ?_
      rintro _ _ ⟨_, rfl, rfl, rfl⟩
      exact ⟨⟨_, rfl, rfl⟩, hmoved.close haround⟩
    · rw [not_and] at hcloses
      rw [@Standing.close?_none (standing.past found.text) kind hcloses]
      refine Ends.mono (apply_close_refuses hparses hmatcher htext hmatch hrule hcloses) ?_
      rintro _ _ ⟨_, rfl, rfl, rfl⟩
      exact ⟨rfl, hmoved⟩

/-- Applying a rule that does a deed comes to what the deed comes to. -/
theorem apply_turn (hpursues : base.Pursues id table input standing world)
    (hrule : table.get? label = some rule) (hdoes : rule.Does deed) :
    ((Kernel.ofDepth rounds (depth + 5)).sendHost id "apply" [.text label]).Ends world
      ((deed.turn input label standing).Taken (base.Pursues id table input)
        Value.IsNodeOrNull) := by
  cases hdoes with
  | captured pattern => exact apply_takes hpursues hrule
  | opening hmatcher htext => exact apply_opens hmatcher htext hpursues hrule
  | closing hmatcher htext => exact apply_closes hmatcher htext hpursues hrule

/-! ## Steps -/

theorem cursor_pursues_look (hpursues : base.Pursues id table input standing world) (serial : Nat) :
    (Run.cursor id "_i").outcome (world.withSerial serial) =
      (.ok standing.cursor, world.withSerial serial) :=
  offset_look hpursues.parses serial

theorem tryRules_turn
    (hdoes : ∀ named ∈ deeds, ∃ rule, table.get? named.1 = some rule ∧ rule.Does named.2)
    (hpursues : base.Pursues id table input standing world) :
    (Parser.tryRules (Kernel.ofDepth rounds (depth + 5)) id
        ((deeds.map Prod.fst).map .text)).Ends world
      ((tryDeeds input deeds standing).Taken (base.Pursues id table input)
        fun moved value => value = moved) := by
  -- a rule that does not move the cursor may still have closed a node, and the next one is tried
  -- where that leaves the parse
  induction deeds generalizing standing world with
  | nil => exact Ends.pure ⟨⟨_, rfl, rfl⟩, hpursues⟩
  | cons named rest ih =>
      obtain ⟨label, deed⟩ := named
      obtain ⟨rule, hrule, hdeed⟩ := hdoes _ List.mem_cons_self
      have hrest := fun other hother => hdoes other (List.mem_cons_of_mem _ hother)
      rw [tryDeeds]
      refine Ends.look standing.cursor (cursor_pursues_look hpursues) ?_
      refine Turn.bind (apply_turn hpursues hrule hdeed) ?_ ?_
      · intro next node hturn value after hvalue hnext
        rw [hturn]
        refine Ends.look next.cursor (cursor_pursues_look hnext) ?_
        dsimp only
        split
        next => exact Ends.pure ⟨⟨_, rfl, rfl⟩, hnext⟩
        next =>
          cases node with
          | true =>
              obtain ⟨node, rfl⟩ := hvalue
              exact Ends.look label (fun _ => rfl) (taken_fail hnext)
          | false =>
              obtain rfl : value = .null := hvalue
              exact ih hrest hnext
      · intro next fault hturn after hnext
        rw [hturn]
        exact ⟨rfl, hnext⟩

theorem complain_turn (hpursues : base.Pursues id table input standing world)
    {answers : Bool → Unit → Prop} :
    (Parser.complain (Kernel.ofDepth rounds (depth + 1)) id).Ends world
      ((Turn.failed standing (standing.complaint input)).Taken (base.Pursues id table input)
        answers) := by
  rw [Standing.complaint]
  cases hchar : input.toList[standing.cursor.offset]? with
  | some char =>
      refine Ends.mono (complain_fails hpursues.parses hchar) ?_
      rintro _ _ ⟨_, rfl, rfl, rfl⟩
      exact ⟨rfl, hpursues⟩
  | none =>
      have hreads := hpursues.parses.reads
      refine Gives.bind (location_gives hreads.isAt) ?_
      rintro _ world ⟨_, rfl⟩
      refine Ends.look _ (hostPart_look "input" hreads.input) ?_
      refine Ends.look standing.cursor (cursor_pursues_look hpursues) ?_
      have hitem : Parser.itemReached (.text input) standing.cursor.offset =
          Run.fail .noCharacter := by
        simp only [Parser.itemReached, hchar]
      change ((Parser.itemReached (.text input) standing.cursor.offset) >>= _).Ends _ _
      rw [hitem]
      exact taken_fail hpursues

theorem step_turn (hdoes : table.Does deeds)
    (hpursues : base.Pursues id table input standing world) :
    ((Kernel.ofDepth rounds (depth + 6)).sendHost id "_step" []).Ends world
      ((takeStep input deeds standing).Taken (base.Pursues id table input) fun _ _ => True) := by
  refine sendHost_ends hpursues.parses.reads.plain .step [] rfl ?_
  have hstep : (Parser.step (Kernel.ofDepth rounds (depth + 5)) id).Ends world
      ((takeStep input deeds standing).Taken (base.Pursues id table input) fun _ _ => True) := by
    refine step_start hpursues.parses ?_
    rw [← hdoes.labels, takeStep]
    refine Turn.bind (tryRules_turn hdoes.does hpursues) ?_ ?_
    · intro next answer hturn moved after hmoved hnext
      rw [hturn]
      obtain rfl : moved = answer := hmoved
      cases moved with
      | true => exact Ends.pure ⟨⟨_, rfl, trivial⟩, hnext⟩
      | false => exact complain_turn hnext
    · intro next fault hturn after hnext
      rw [hturn]
      exact ⟨rfl, hnext⟩
  refine Turn.bind hstep ?_ ?_
  · intro next answer hturn _ after _ hnext
    rw [hturn]
    exact Ends.pure ⟨⟨_, rfl, trivial⟩, hnext⟩
  · intro next fault hturn after hnext
    rw [hturn]
    exact ⟨rfl, hnext⟩

/-! ## The whole parse -/

/-- The loop takes as many steps as it goes round. -/
theorem stepAll_turn (hdoes : table.Does deeds)
    (hpursues : base.Pursues id table input standing world) (fuel : Nat) :
    (Parser.stepAll (Kernel.ofDepth rounds (depth + 6)) id fuel).Ends world
      ((takeSteps input deeds fuel standing).Taken (base.Pursues id table input)
        fun _ _ => True) := by
  induction fuel generalizing standing world with
  | zero => exact taken_fail hpursues
  | succ fuel ih =>
      refine Ends.look standing.cursor (cursor_pursues_look hpursues) ?_
      refine Ends.look _ (hostPart_look "input" hpursues.parses.reads.input) ?_
      refine Ends.look input.toList.length (fun _ => ?_) ?_
      · simp [lengthOf, String.length_toList, Standing.stage]
      rw [takeSteps]
      split
      next =>
        refine Turn.bind (step_turn hdoes hpursues) ?_ ?_
        · intro next answer hturn _ after _ hnext
          rw [hturn]
          exact ih hnext
        · intro next fault hturn after hnext
          rw [hturn]
          exact ⟨rfl, hnext⟩
      next => exact Ends.pure ⟨⟨_, rfl, trivial⟩, hpursues⟩

/-- A parse takes its course, whatever there was in the world in which it begins. -/
theorem parse_turn (hdoes : table.Does deeds) (hplain : base.Plain id) (hruled : base.Ruled id table)
    (input : String) :
    ((Kernel.ofDepth rounds (depth + 7)).sendHost id "parse" [.text input]).Ends base
      ((course input deeds rounds).Taken (base.Pursues id table input)
        fun _ value => value = .node base.forest.size) := by
  refine sendHost_ends hplain .parse [_] rfl ?_
  have hbegun : base.Pursues id table input .start (base.restart id (.text input)) :=
    ⟨World.restart_parses hplain hruled input, .restart base id _⟩
  have hreset : ((Kernel.ofDepth rounds (depth + 6)).sendHost id "reset" [.text input]).Gives base
      fun _ after => base.Pursues id table input .start after := by
    refine sendHost_ends hplain .reset [_] rfl ?_
    exact Ends.change () (base.restart id (.text input)) (fun _ => rfl) (Gives.pure hbegun)
  refine Gives.bind hreset ?_
  intro _ world hstart
  rw [course]
  refine Turn.bind (stepAll_turn hdoes hstart rounds) ?_ ?_
  · intro last answer hturn _ after _ hlast
    rw [hturn]
    refine Ends.mono (close_ends hlast.parses) ?_
    obtain ⟨cursor, innermost, around⟩ := last
    rintro _ _ ⟨rfl, rfl⟩
    cases around with
    | nil => exact ⟨⟨_, rfl, rfl⟩, hlast⟩
    | cons level further => exact ⟨rfl, hlast⟩
  · intro last fault hturn after hlast
    rw [hturn]
    exact ⟨rfl, hlast⟩

end Course

end Rulebook
