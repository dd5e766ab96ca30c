import Mathlib.Data.List.Nodup
import Rulebook.Proofs.Progress

/-!
# A step gives each rule one turn

A step goes through the labels that stood in the table when it began, while the rules it runs may
write into the table. Each label that comes to its turn has the function called that stands under it
at that moment. The step ends with the first turn that takes the parser on, gives a node without
taking it on, or fails; it complains about the character at the cursor when no turn did. A label
that is registered meanwhile stands behind the others, and is there for the next step.
-/

namespace Rulebook

open Run

/-! ## The law -/

/-- What a step works by: what the parser reads, its rules, and the methods that a step calls. -/
def turnNames : List String := readingFields ++ ["rules", "_step", "apply", "get", "location"]

/-- Rules may do anything but begin the parser anew, take rules away, and put something in the place
of what a step works by. -/
def turnTaking (id : HostId) : Law where
  call callable args _ :=
    match callable with
    | .method _ (.host _) "define" => args.sparesNames turnNames
    | .method _ (.host other) "reset" => other ≠ id
    | _ => true
  own _ _ _ := true
  action
    | .write _ name _ => name ∉ turnNames
    | .drop _ _ => false
    | _ => true

theorem turnTaking_guards (id : HostId) : (turnTaking id).Guards turnNames where
  define hcall := hcall
  write haction := of_decide_eq_true haction

/-! ## Turns -/

/-- A parser that steps can be made with: it reads a text from a cursor on, and its rules are in the
record that it was made with, under names that are their keys. -/
structure Host.TakesTurns (host : Host) (id : HostId) (text : String) : Prop where
  hostClass : host.hostClass = .parser
  input : host.input = some (.text text)
  cursor : ∃ cursor, host.cursor = some cursor
  root : ∃ root, host.root = some root
  rules : host.rules = some (.record (.rules id))
  keyed : host.ownRules.Keyed
  nodup : host.ownRules.keys.Nodup

/-- Steps can be made with a parser, and nothing is in the place of what a step works by. -/
structure World.TakesTurns (world : World) (id : HostId) (text : String) : Prop where
  unreplaced : world.Unreplaced turnNames
  host : (world.host id).TakesTurns id text

section Turns

variable (rounds depth : Nat) (id : HostId)

/-- The function of a rule is called with the parser, and a node that it gives is attached if it has
no parent. -/
def takeTurn (kernel : Kernel) (rule : Value) : Run Value := do
  match ← kernel.call rule [.host id] with
  | .node node =>
    Parser.attachLoose kernel id (.node node)
    return .node node
  | _ => return .null

/-- A label takes its turn: the function that stands under it then is the one that is called. -/
def LabelTurn (label : Value) (world : World) (result : Except Fault Value) (after : World) :
    Prop :=
  ∃ key entry, label.key? = some key ∧ (world.host id).ownRules.get? key = some entry ∧
    (takeTurn id (Kernel.ofDepth rounds (depth + 1)) entry.value).outcome world.later.later =
      (result, after)

/-- Labels take their turns in order, and each gives nothing and leaves the parser where it is. -/
inductive IdleTurns : World → List Value → World → Prop
  | none (world : World) : IdleTurns world [] world
  | turn {world middle after : World} {label : Value} {rest : List Value}
      (hturn : LabelTurn rounds depth id label world (.ok .null) middle)
      (hplace : (middle.host id).offset = (world.host id).offset)
      (hrest : IdleTurns middle rest after) : IdleTurns world (label :: rest) after

/-- How a step ends that goes through labels. -/
inductive StepTurns (text : String) (labels : List Value) (world : World) :
    Except Fault Value → World → Prop
  /-- The last label to take its turn took the parser further on. -/
  | moved {tried rest : List Value} {label value : Value} {before after : World}
      (hlabels : labels = tried ++ label :: rest)
      (htried : IdleTurns rounds depth id world tried before)
      (hturn : LabelTurn rounds depth id label before (.ok value) after)
      (hfurther : (before.host id).offset < (after.host id).offset) :
      StepTurns text labels world (.ok .null) after
  /-- The last label to take its turn gave a node and did not take the parser on. -/
  | gave {tried rest : List Value} {label : Value} {node : NodeId} {before after : World}
      (hlabels : labels = tried ++ label :: rest)
      (htried : IdleTurns rounds depth id world tried before)
      (hturn : LabelTurn rounds depth id label before (.ok (.node node)) after)
      (hplace : (after.host id).offset = (before.host id).offset) :
      StepTurns text labels world (.error (.idleRule (after.plainText label))) after
  /-- The last label to take its turn failed. -/
  | raised {tried rest : List Value} {label : Value} {fault : Fault} {before after : World}
      (hlabels : labels = tried ++ label :: rest)
      (htried : IdleTurns rounds depth id world tried before)
      (hturn : LabelTurn rounds depth id label before (.error fault) after) :
      StepTurns text labels world (.error fault) after
  /-- All labels took their turns, and there is a complaint about the character at the cursor. -/
  | unexpected {before : World} {cursor : Cursor} {char : Char}
      (htried : IdleTurns rounds depth id world labels before)
      (hcursor : (before.host id).cursor = some cursor)
      (hchar : text.toList[cursor.offset]? = some char) :
      StepTurns text labels world
        (.error (.unexpectedCharacter (Text.quoted (String.ofList [char]))
          ⟨toString cursor.line, toString cursor.column,
            Text.caretSnippet text.toList cursor.offset⟩)) before.later.later

end Turns

/-! ## What rules keep -/

/-- A host is no further back than another, and its rules have the names that those of the other
have, in the same order and before all others. -/
structure Host.GoesOn (host before : Host) : Prop where
  offset : before.offset ≤ host.offset
  names : before.ownRules.values.map Entry.name <+: host.ownRules.values.map Entry.name

theorem Host.GoesOn.of_same {host before : Host} (hcursor : host.cursor = before.cursor)
    (hrules : host.ownRules = before.ownRules) : host.GoesOn before where
  offset := Nat.le_of_eq (by rw [Host.offset, Host.offset, hcursor])
  names := by rw [hrules]

theorem Host.GoesOn.refl (host : Host) : host.GoesOn host := of_same rfl rfl

theorem Host.GoesOn.trans {host middle before : Host} (hlater : host.GoesOn middle)
    (hfirst : middle.GoesOn before) : host.GoesOn before where
  offset := Nat.le_trans hfirst.offset hlater.offset
  names := hfirst.names.trans hlater.names

section Records

variable {record : Record}

theorem names_insertEntry (key : Key) (name content : Value) (entries : List (Key × Entry)) :
    (Table.insertEntry key ⟨((entries.lookup key).map Entry.name).getD name, content⟩
        entries).map (fun entry => entry.2.name) =
      if (entries.lookup key).isSome then entries.map fun entry => entry.2.name
      else (entries.map fun entry => entry.2.name) ++ [name] := by
  induction entries with
  | nil => rfl
  | cons head rest ih =>
      obtain ⟨other, old⟩ := head
      by_cases hsame : other = key
      · subst hsame
        simp [Table.insertEntry]
      · have hother : (key == other) = false := beq_false_of_ne fun heq => hsame heq.symm
        simp only [Table.insertEntry, if_neg hsame, List.lookup_cons, hother, List.map_cons, ih]
        split
        next => rfl
        next => rfl

/-- Writing keeps the names of the entries in order; a name that is new comes last. -/
theorem Record.names_write (key : Key) (name content : Value) :
    (record.write key name content).values.map Entry.name =
      if record.has key then record.values.map Entry.name
      else record.values.map Entry.name ++ [name] := by
  rw [Table.values, Table.values, List.map_map, List.map_map]
  exact names_insertEntry key name content record.entries

/-- Distinct keys are the keys of distinct names. -/
theorem Record.Keyed.nodup_names (hkeyed : record.Keyed) (hnodup : record.keys.Nodup) :
    (record.values.map Entry.name).Nodup := by
  have hkeys : (record.values.map Entry.name).map Value.key? = record.keys.map some := by
    simp only [Table.values, Table.keys, List.map_map]
    exact List.map_congr_left fun entry hentry => hkeyed entry hentry
  have hsome : (record.keys.map some).Nodup := hnodup.map (Option.some_injective _)
  rw [← hkeys] at hsome
  exact hsome.of_map _

end Records

section Moves

variable {world after : World} {id : HostId} {text : String}

/-- Writing an attribute that steps do not work by leaves a parser that steps can be made with. -/
theorem Host.TakesTurns.setAttribute {host : Host} (htakes : host.TakesTurns id text)
    (content : Value) {name : String} (hname : name ∉ turnNames) :
    (host.setAttribute name content).TakesTurns id text ∧
      (host.setAttribute name content).GoesOn host := by
  have hown := Host.ownRules_setAttribute host name content
  have hcursor := Host.cursor_setAttribute host name content
  have hclass : (host.setAttribute name content).hostClass = host.hostClass := by
    unfold Host.setAttribute
    split <;> rfl
  have hroot : ∃ root, (host.setAttribute name content).root = some root := by
    rw [Host.root_setAttribute]
    split
    next => exact ⟨content, rfl⟩
    next => exact htakes.root
  refine ⟨?_, .of_same hcursor hown⟩
  exact
    { hostClass := hclass.trans htakes.hostClass
      input := by
        rw [Host.input_setAttribute, if_neg (by rintro rfl; exact hname (by decide))]
        exact htakes.input
      cursor := hcursor ▸ htakes.cursor
      root := hroot
      rules := by
        rw [Host.rules_setAttribute, if_neg (by rintro rfl; exact hname (by decide))]
        exact htakes.rules
      keyed := hown ▸ htakes.keyed
      nodup := hown ▸ htakes.nodup }

/-- A rule that is written is behind those that were there, or in the place of one of them. -/
theorem Host.TakesTurns.records {host : Host} (htakes : host.TakesTurns id text)
    (ownOptions ownPatterns : Record) {ownRules : Record}
    (hrules : (turnTaking id).RecordChange host.ownRules ownRules) :
    { host with ownOptions, ownRules, ownPatterns }.TakesTurns id text ∧
      { host with ownOptions, ownRules, ownPatterns }.GoesOn host := by
  cases hrules with
  | same => exact ⟨{ htakes with }, .of_same rfl rfl⟩
  | @write key name content hname =>
      refine ⟨{ htakes with keyed := ?_, nodup := ?_ }, ⟨Nat.le_refl _, ?_⟩⟩
      · exact htakes.keyed.write content hname
      · exact Table.nodup_insert _ _ htakes.nodup
      · rw [Record.names_write]
        split
        next => exact List.prefix_rfl
        next => exact List.prefix_append _ _
  | erase _ haction => cases haction

theorem Law.HostChange.takesTurns {host : Host} (hchange : (turnTaking id).HostChange world id host)
    (htakes : (world.host id).TakesTurns id text) :
    host.TakesTurns id text ∧ host.GoesOn (world.host id) := by
  cases hchange with
  | same => exact ⟨htakes, .refl _⟩
  | records ownOptions ownPatterns hrules => exact htakes.records ownOptions ownPatterns hrules
  | made _ _ _ _ _ _ _ hnew =>
      have hinput := htakes.input
      rw [hnew, World.host_size] at hinput
      cases hinput
  | setNested => exact ⟨{ htakes with }, .of_same rfl rfl⟩
  | advance _ _ hcursor =>
      refine ⟨{ htakes with cursor := ⟨_, rfl⟩ }, ⟨?_, List.prefix_rfl⟩⟩
      simp only [Host.offset, hcursor, Option.map_some, Option.getD_some, Cursor.offset_advance]
      exact Nat.le_add_right _ _
  | mark content hname =>
      exact htakes.setAttribute content (by rcases hname with rfl | rfl <;> decide)
  | define hcall hargs =>
      have hspared := (turnTaking_guards id).define hcall
      simp only [Args.sparesNames, ParserMethod.params, hargs, decide_eq_true_eq] at hspared
      exact htakes.setAttribute _ hspared
  | write content haction =>
      exact htakes.setAttribute content ((turnTaking_guards id).write haction)

/-- What rules may do leaves a parser that steps can be made with, and it has gone on. -/
theorem World.TakesTurns.move (htakes : world.TakesTurns id text)
    (hmove : (turnTaking id).Move (fun world => world.TakesTurns id text) world after) :
    after.TakesTurns id text ∧ (after.host id).GoesOn (world.host id) := by
  have hunreplaced := unreplaced_preserved (turnTaking_guards id) (by decide) world after
    (hmove.mono fun _ hbefore => hbefore.unreplaced) htakes.unreplaced
  have hhost := hmove.host id
  generalize hafter : after.host id = host at hhost
  cases hhost with
  | change hchange =>
      obtain ⟨hkept, hon⟩ := hchange.takesTurns htakes.host
      exact ⟨⟨hunreplaced, hafter ▸ hkept⟩, hon⟩
  | restart _ hcause =>
      -- the parser has a root and is not told to begin anew
      obtain ⟨root, hroot⟩ := htakes.host.root
      rcases hcause with hnone | ⟨_, _, hcall⟩
      · cases hroot.symm.trans hnone
      · simp [turnTaking] at hcall

end Moves

/-- Steps can be made with a parser throughout what rules may do, and it goes on from a host. -/
theorem turnTaking_upholds (id : HostId) (text : String) (before : Host) :
    (turnTaking id).Upholds fun world =>
      world.TakesTurns id text ∧ (world.host id).GoesOn before where
  preserves := by
    rintro world after hmove ⟨htakes, hon⟩
    obtain ⟨hafter, hlater⟩ := htakes.move (hmove.mono fun _ => And.left)
    exact ⟨hafter, hlater.trans hon⟩
  clears hown _ _ := by cases hown <;> rfl

/-! ## The rules of a step -/

section Step

variable {rounds depth : Nat} {id : HostId} {text : String} {world after : World}

namespace World.TakesTurns

variable (htakes : world.TakesTurns id text)

include htakes

theorem later : world.later.TakesTurns id text := ⟨htakes.unreplaced, htakes.host⟩

theorem offset_outcome (lacking : String) :
    ∃ cursor, cursor.offset = (world.host id).offset ∧
      (Run.cursor id lacking).outcome world = (.ok cursor, world) := by
  obtain ⟨cursor, hcursor⟩ := htakes.host.cursor
  refine ⟨cursor, ?_, cursor_look hcursor lacking world.serial⟩
  rw [Host.offset, hcursor]
  rfl

/-- Each name in the table has an entry under its key. -/
theorem ruleNames_get {label : Value} (hlabel : label ∈ world.ruleNames id) :
    ∃ key entry, label.key? = some key ∧ (world.host id).ownRules.get? key = some entry := by
  obtain ⟨named, hnamed, rfl⟩ := List.mem_map.mp hlabel
  obtain ⟨⟨key, _⟩, hmem, rfl⟩ := List.mem_map.mp hnamed
  obtain ⟨entry, hentry⟩ := Option.isSome_iff_exists.mp (Table.has_of_mem hmem)
  exact ⟨key, entry, htakes.host.keyed _ hmem, hentry⟩

/-- To apply a label that has a rule is to let it take its turn. -/
theorem apply_outcome {label : Value} {key : Key} {entry : Entry} (hkey : label.key? = some key)
    (hentry : (world.host id).ownRules.get? key = some entry) :
    ((Kernel.ofDepth rounds (depth + 2)).sendHost id "apply" [label]).outcome world =
      (takeTurn id (Kernel.ofDepth rounds (depth + 1)) entry.value).outcome world.later.later := by
  have hget : ((Kernel.ofDepth rounds (depth + 1)).sendHost id "get" [label]).outcome world.later =
      (.ok entry.value, world.later.later) :=
    (sendHost_free_outcome .get htakes.later.host.hostClass
      (htakes.later.unreplaced id _ (by decide)) rfl).trans
        (getRule_outcome htakes.later.later.host.rules hkey hentry)
  refine (sendHost_free_outcome .apply htakes.host.hostClass
    (htakes.unreplaced id _ (by decide)) rfl).trans ?_
  exact outcome_bind_ok hget

/-- A complaint is about the character at the cursor, and points at it. -/
theorem complain_outcome (rounds depth : Nat) {cursor : Cursor} {char : Char}
    (hcursor : (world.host id).cursor = some cursor)
    (hchar : text.toList[cursor.offset]? = some char) :
    (Parser.complain (Kernel.ofDepth rounds (depth + 1)) id).outcome world =
      (.error (.unexpectedCharacter (Text.quoted (String.ofList [char]))
        ⟨toString cursor.line, toString cursor.column,
          Text.caretSnippet text.toList cursor.offset⟩), world.later.later) := by
  have hlocation : (Parser.askLocation (Kernel.ofDepth rounds (depth + 1)) id).outcome world =
      (.ok (.ofCursor world.later.serial cursor), world.later.later) := by
    refine (sendHost_free_outcome .location htakes.host.hostClass
      (htakes.unreplaced id _ (by decide)) rfl).trans ?_
    exact outcome_bind_ok (cursor_look hcursor "_line" world.later.serial)
  have hitem : (Parser.itemReached (.text text) cursor.offset).outcome world.later.later =
      (.ok (.ofChars [char]), world.later.later) := by
    rw [Parser.itemReached, hchar]
    rfl
  have hspelling : (Run.spell (.ofChars [char])).outcome world.later.later =
      (.ok (Text.quoted (String.ofList [char])), world.later.later) := rfl
  have hinput : (hostPart id "input").outcome world.later.later =
      (.ok (.text text), world.later.later) :=
    hostPart_look "input" htakes.host.input world.later.later.serial
  have hplace : (Run.cursor id "_i").outcome world.later.later = (.ok cursor, world.later.later) :=
    cursor_look hcursor "_i" world.later.later.serial
  rw [Parser.complain, outcome_bind_ok hlocation, outcome_bind_ok hinput, outcome_bind_ok hplace,
    outcome_bind_ok hitem, outcome_bind_ok hspelling]
  exact outcome_bind_ok (pointer_look htakes.host.input hcursor _ world.later.later.serial)

end World.TakesTurns

/-! ### One turn -/

/-- A function gives a node or nothing, or it fails. -/
theorem takeTurn_result (id : HostId) (kernel : Kernel) (rule : Value) (world : World) :
    ((takeTurn id kernel rule).outcome world).1 = .ok .null ∨
      (∃ node, ((takeTurn id kernel rule).outcome world).1 = .ok (.node node)) ∨
        ∃ fault, ((takeTurn id kernel rule).outcome world).1 = .error fault := by
  rw [takeTurn, outcome_bind]
  rcases (kernel.call rule [.host id]).outcome world with ⟨fault | value, middle⟩
  · exact .inr (.inr ⟨fault, rfl⟩)
  · dsimp only
    split
    next node =>
      rw [outcome_bind]
      rcases (Parser.attachLoose kernel id (.node node)).outcome middle with ⟨fault | _, after⟩
      · exact .inr (.inr ⟨fault, rfl⟩)
      · exact .inr (.inl ⟨node, rfl⟩)
    next => exact .inl rfl

/-- A label takes its turn in one way only. -/
theorem LabelTurn.unique {label : Value} {result other : Except Fault Value} {last : World}
    (hturn : LabelTurn rounds depth id label world result after)
    (hother : LabelTurn rounds depth id label world other last) :
    result = other ∧ after = last := by
  obtain ⟨key, entry, hkey, hentry, hrun⟩ := hturn
  obtain ⟨_, _, hsame, hthere, hrun'⟩ := hother
  cases hkey.symm.trans hsame
  cases hentry.symm.trans hthere
  exact Prod.mk.inj (hrun.symm.trans hrun')

/-- How the turn of a label goes that comes before others: steps can be made with the parser
afterwards, it has gone on, and if the label gave nothing and left the parser where it was, then the
others keep to the law as well. -/
structure TurnTaken (rounds depth : Nat) (id : HostId) (text : String) (label : Value)
    (rest : List Value) (world : World) (result : Except Fault Value) (after : World) : Prop where
  turn : LabelTurn rounds depth id label world result after
  apply : ((Kernel.ofDepth rounds (depth + 2)).sendHost id "apply" [label]).outcome world =
    (result, after)
  ended : wasCutOff result = false
  takesTurns : after.TakesTurns id text
  goesOn : (after.host id).GoesOn (world.host id)
  rest : result = .ok .null → (after.host id).offset = (world.host id).offset →
    (turnTaking id).keepsTries rounds depth id rest after = true

theorem World.TakesTurns.takes (htakes : world.TakesTurns id text) {label : Value}
    {rest : List Value} (hlabel : label ∈ world.ruleNames id)
    (hkeeps : (turnTaking id).keepsTries rounds depth id (label :: rest) world = true) :
    ∃ result after, TurnTaken rounds depth id text label rest world result after := by
  rcases hwatched : (((turnTaking id).kernel .null rounds (depth + 2)).sendHost id "apply"
    [label]).outcome world with ⟨result, after⟩
  have hended := Law.keepsTries_ended hkeeps hwatched
  have hover := Law.oversees_free (turnTaking_upholds id text (world.host id)) .null rounds
    (depth + 2)
  obtain ⟨happly, hafter, hon⟩ := (hover.sendHost id (fun _ => rfl) [label] world).ended
    ⟨htakes, .refl _⟩ hwatched hended
  obtain ⟨key, entry, hkey, hentry⟩ := htakes.ruleNames_get hlabel
  refine ⟨result, after, ?_⟩
  exact
    { turn := ⟨key, entry, hkey, hentry, (htakes.apply_outcome hkey hentry).symm.trans happly⟩
      apply := happly
      ended := hended
      takesTurns := hafter
      goesOn := hon
      rest := by
        rintro rfl hplace
        exact Law.keepsTries_rest hkeeps hwatched (hplace ▸ Nat.lt_irrefl _) }

/-- However the turn of a label went, it went as a label's turn goes that keeps the law. -/
theorem LabelTurn.taken {label : Value} {rest : List Value} {result : Except Fault Value}
    (hturn : LabelTurn rounds depth id label world result after) (htakes : world.TakesTurns id text)
    (hlabel : label ∈ world.ruleNames id)
    (hkeeps : (turnTaking id).keepsTries rounds depth id (label :: rest) world = true) :
    TurnTaken rounds depth id text label rest world result after := by
  obtain ⟨_, _, htaken⟩ := htakes.takes hlabel hkeeps
  obtain ⟨rfl, rfl⟩ := hturn.unique htaken.turn
  exact htaken

namespace TurnTaken

variable {label : Value} {rest : List Value} {fault : Fault} {value : Value} {node : NodeId}

/-- A label that fails is the last one that is tried. -/
theorem tryRules_raises
    (htaken : TurnTaken rounds depth id text label rest world (.error fault) after)
    (htakes : world.TakesTurns id text) :
    (Parser.tryRules (Kernel.ofDepth rounds (depth + 2)) id (label :: rest)).outcome world =
      (.error fault, after) := by
  obtain ⟨start, _, hbefore⟩ := htakes.offset_outcome "_i"
  rw [Parser.tryRules, outcome_bind_ok hbefore, outcome_bind, htaken.apply]

/-- After a label that did not fail it is asked whether the parser is further on. -/
theorem tryRules_gave
    (htaken : TurnTaken rounds depth id text label rest world (.ok value) after)
    (htakes : world.TakesTurns id text) :
    (Parser.tryRules (Kernel.ofDepth rounds (depth + 2)) id (label :: rest)).outcome world =
      (if (world.host id).offset < (after.host id).offset then pure true
      else
        match value with
        | .null => Parser.tryRules (Kernel.ofDepth rounds (depth + 2)) id rest
        | _ => do Run.fail (.idleRule (← Run.plainText label))).outcome after := by
  obtain ⟨start, hstart, hbefore⟩ := htakes.offset_outcome "_i"
  obtain ⟨reached, hreached, hlater⟩ := htaken.takesTurns.offset_outcome "_i"
  rw [Parser.tryRules, outcome_bind_ok hbefore, outcome_bind_ok htaken.apply, ← hstart, ← hreached]
  exact outcome_bind_ok hlater

/-- A label that takes the parser on is the last one that is tried. -/
theorem tryRules_further
    (htaken : TurnTaken rounds depth id text label rest world (.ok value) after)
    (htakes : world.TakesTurns id text)
    (hfurther : (world.host id).offset < (after.host id).offset) :
    (Parser.tryRules (Kernel.ofDepth rounds (depth + 2)) id (label :: rest)).outcome world =
      (.ok true, after) := by
  rw [htaken.tryRules_gave htakes, if_pos hfurther, outcome_pure]

/-- A label that gives a node and does not take the parser on is complained about. -/
theorem tryRules_node
    (htaken : TurnTaken rounds depth id text label rest world (.ok (.node node)) after)
    (htakes : world.TakesTurns id text)
    (hplace : (after.host id).offset = (world.host id).offset) :
    (Parser.tryRules (Kernel.ofDepth rounds (depth + 2)) id (label :: rest)).outcome world =
      (.error (.idleRule (after.plainText label)), after) := by
  rw [htaken.tryRules_gave htakes, if_neg (Nat.not_lt_of_le (Nat.le_of_eq hplace))]
  rfl

/-- After a label that gives nothing and does not take the parser on the others are tried. -/
theorem tryRules_idle
    (htaken : TurnTaken rounds depth id text label rest world (.ok .null) after)
    (htakes : world.TakesTurns id text)
    (hplace : (after.host id).offset = (world.host id).offset) :
    (Parser.tryRules (Kernel.ofDepth rounds (depth + 2)) id (label :: rest)).outcome world =
      (Parser.tryRules (Kernel.ofDepth rounds (depth + 2)) id rest).outcome after := by
  rw [htaken.tryRules_gave htakes, if_neg (Nat.not_lt_of_le (Nat.le_of_eq hplace))]

end TurnTaken

/-! ### All turns of a step -/

/-- The labels have rules, which keep the law when they are tried in order. -/
structure World.CanTry (world : World) (rounds depth : Nat) (id : HostId) (text : String)
    (labels : List Value) : Prop where
  takesTurns : world.TakesTurns id text
  present : ∀ label ∈ labels, label ∈ world.ruleNames id
  keeps : (turnTaking id).keepsTries rounds depth id labels world = true

section Tries

variable {labels tried rest : List Value} {label : Value}

theorem World.CanTry.takes (hcan : world.CanTry rounds depth id text (label :: rest)) :
    ∃ result after, TurnTaken rounds depth id text label rest world result after :=
  hcan.takesTurns.takes (hcan.present label List.mem_cons_self) hcan.keeps

theorem World.CanTry.taken {result : Except Fault Value}
    (hcan : world.CanTry rounds depth id text (label :: rest))
    (hturn : LabelTurn rounds depth id label world result after) :
    TurnTaken rounds depth id text label rest world result after :=
  hturn.taken hcan.takesTurns (hcan.present label List.mem_cons_self) hcan.keeps

/-- After a label that gave nothing and left the parser where it was the others can be tried. -/
theorem World.CanTry.next (hcan : world.CanTry rounds depth id text (label :: rest))
    (htaken : TurnTaken rounds depth id text label rest world (.ok .null) after)
    (hplace : (after.host id).offset = (world.host id).offset) :
    after.CanTry rounds depth id text rest where
  takesTurns := htaken.takesTurns
  present other hother :=
    htaken.goesOn.names.subset (hcan.present other (List.mem_cons_of_mem _ hother))
  keeps := htaken.rest rfl hplace

/-- Labels that give nothing and leave the parser where it is are passed over. -/
theorem IdleTurns.passed (hidle : IdleTurns rounds depth id world tried after)
    (hcan : world.CanTry rounds depth id text (tried ++ rest)) :
    after.CanTry rounds depth id text rest ∧ (after.host id).GoesOn (world.host id) ∧
      (Parser.tryRules (Kernel.ofDepth rounds (depth + 2)) id (tried ++ rest)).outcome world =
        (Parser.tryRules (Kernel.ofDepth rounds (depth + 2)) id rest).outcome after := by
  -- by induction on the turns: each leads to a world in which the labels behind it can be tried
  induction hidle with
  | none => exact ⟨hcan, .refl _, rfl⟩
  | turn hturn hplace _ ih =>
      rw [List.cons_append] at hcan ⊢
      have htaken := hcan.taken hturn
      obtain ⟨hafter, hon, htries⟩ := ih (hcan.next htaken hplace)
      refine ⟨hafter, hon.trans htaken.goesOn, ?_⟩
      rw [htaken.tryRules_idle hcan.takesTurns hplace, htries]

/-- What a step comes to that has labels to try. -/
def tryAll (rounds depth : Nat) (id : HostId) (labels : List Value) : Run Unit := do
  if ← Parser.tryRules (Kernel.ofDepth rounds (depth + 2)) id labels then return ()
  else Parser.complain (Kernel.ofDepth rounds (depth + 2)) id

/-- To try labels comes to an end, and leaves a parser that steps can be made with. -/
structure StepEnds (rounds depth : Nat) (id : HostId) (text : String) (labels : List Value)
    (world : World) (result : Except Fault Value) (after : World) : Prop where
  outcome : (tryAll rounds depth id labels >>= fun _ => pure .null).outcome world = (result, after)
  ended : wasCutOff result = false
  takesTurns : after.TakesTurns id text
  goesOn : (after.host id).GoesOn (world.host id)

/-- A step goes as the turns of its labels go. -/
theorem StepTurns.ends {result : Except Fault Value}
    (hturns : StepTurns rounds depth id text labels world result after)
    (hcan : world.CanTry rounds depth id text labels) :
    StepEnds rounds depth id text labels world result after := by
  cases hturns with
  | moved hlabels htried hturn hfurther =>
      subst hlabels
      obtain ⟨hbefore, hon, htries⟩ := htried.passed hcan
      have htaken := hbefore.taken hturn
      refine ⟨?_, rfl, htaken.takesTurns, htaken.goesOn.trans hon⟩
      rw [outcome_bind, tryAll, outcome_bind, htries,
        htaken.tryRules_further hbefore.takesTurns hfurther]
      rfl
  | gave hlabels htried hturn hplace =>
      subst hlabels
      obtain ⟨hbefore, hon, htries⟩ := htried.passed hcan
      have htaken := hbefore.taken hturn
      refine ⟨?_, rfl, htaken.takesTurns, htaken.goesOn.trans hon⟩
      rw [outcome_bind, tryAll, outcome_bind, htries,
        htaken.tryRules_node hbefore.takesTurns hplace]
  | raised hlabels htried hturn =>
      subst hlabels
      obtain ⟨hbefore, hon, htries⟩ := htried.passed hcan
      have htaken := hbefore.taken hturn
      refine ⟨?_, htaken.ended, htaken.takesTurns, htaken.goesOn.trans hon⟩
      rw [outcome_bind, tryAll, outcome_bind, htries, htaken.tryRules_raises hbefore.takesTurns]
  | unexpected htried hcursor hchar =>
      rw [← List.append_nil labels] at hcan
      obtain ⟨hbefore, hon, htries⟩ := htried.passed hcan
      rw [List.append_nil] at htries
      refine ⟨?_, rfl, hbefore.takesTurns.later.later, hon⟩
      rw [outcome_bind, tryAll, outcome_bind, htries]
      dsimp only [Parser.tryRules, outcome_pure]
      rw [if_neg Bool.false_ne_true,
        hbefore.takesTurns.complain_outcome rounds (depth + 1) hcursor hchar]

/-- A label that gives nothing and leaves the parser where it is comes before the turns of the
others. -/
theorem StepTurns.cons {result : Except Fault Value} {middle : World}
    (hturn : LabelTurn rounds depth id label world (.ok .null) middle)
    (hplace : (middle.host id).offset = (world.host id).offset)
    (hturns : StepTurns rounds depth id text rest middle result after) :
    StepTurns rounds depth id text (label :: rest) world result after := by
  cases hturns with
  | moved hlabels htried hlast hfurther =>
      exact .moved (congrArg (label :: ·) hlabels) (.turn hturn hplace htried) hlast hfurther
  | gave hlabels htried hlast hidle =>
      exact .gave (congrArg (label :: ·) hlabels) (.turn hturn hplace htried) hlast hidle
  | raised hlabels htried hlast =>
      exact .raised (congrArg (label :: ·) hlabels) (.turn hturn hplace htried) hlast
  | unexpected htried hcursor hchar =>
      exact .unexpected (.turn hturn hplace htried) hcursor hchar

/-- The turns of labels come to an end in one of the ways in which they may. -/
theorem World.CanTry.turns (hcan : world.CanTry rounds depth id text labels)
    (hleft : (world.host id).offset < text.toList.length) :
    ∃ result after, StepTurns rounds depth id text labels world result after := by
  induction labels generalizing world with
  | nil =>
      obtain ⟨cursor, hcursor⟩ := hcan.takesTurns.host.cursor
      have hplace : cursor.offset < text.toList.length := by
        simpa only [Host.offset, hcursor, Option.map_some, Option.getD_some] using hleft
      exact ⟨_, _, .unexpected (.none world) hcursor (List.getElem?_eq_getElem hplace)⟩
  | cons label rest ih =>
      obtain ⟨result, middle, htaken⟩ := hcan.takes
      have hlabels : label :: rest = [] ++ label :: rest := rfl
      by_cases hfurther : (world.host id).offset < (middle.host id).offset
      · cases result with
        | error fault => exact ⟨_, _, .raised hlabels (.none world) htaken.turn⟩
        | ok value => exact ⟨_, _, .moved hlabels (.none world) htaken.turn hfurther⟩
      · have hplace : (middle.host id).offset = (world.host id).offset :=
          Nat.le_antisymm (Nat.le_of_not_lt hfurther) htaken.goesOn.offset
        obtain ⟨_, entry, _, _, hrun⟩ := htaken.turn
        have hresult := takeTurn_result id (Kernel.ofDepth rounds (depth + 1)) entry.value
          world.later.later
        rw [hrun] at hresult
        rcases hresult with rfl | ⟨node, rfl⟩ | ⟨fault, rfl⟩
        · obtain ⟨result, after, hturns⟩ := ih (hcan.next htaken hplace) (hplace ▸ hleft)
          exact ⟨result, after, .cons htaken.turn hplace hturns⟩
        · exact ⟨_, _, .gave hlabels (.none world) htaken.turn hplace⟩
        · exact ⟨_, _, .raised hlabels (.none world) htaken.turn⟩

end Tries

/-- How a step goes that begins in a world. -/
structure StepGoes (rounds depth : Nat) (id : HostId) (text : String) (world : World)
    (result : Except Fault Value) (after : World) : Prop where
  outcome : ((Kernel.ofDepth rounds (depth + 3)).sendHost id "_step" []).outcome world =
    (result, after)
  ended : wasCutOff result = false
  /-- No name stands twice among those that the step goes through. -/
  distinct : (world.ruleNames id).Nodup
  /-- The step ends as the turns of the names end that stood in the table when it began. -/
  turns : StepTurns rounds depth id text (world.ruleNames id) world.later result after
  /-- There is no other way for the turns to end. -/
  only : ∀ other last,
    StepTurns rounds depth id text (world.ruleNames id) world.later other last →
      other = result ∧ last = after
  /-- Another step can be made, which goes through these names first. -/
  takesTurns : after.TakesTurns id text
  goesOn : (after.host id).GoesOn (world.host id)
  /-- What was registered meanwhile is not among the names that the step went through, but it is
  there for the next step. -/
  registered : ∀ key entry, (world.host id).ownRules.get? key = none →
    (after.host id).ownRules.get? key = some entry →
      entry.name ∉ world.ruleNames id ∧ entry.name ∈ after.ruleNames id

/-- What has an entry now and had none before has a name that is new. -/
theorem World.TakesTurns.registered (htakes : world.TakesTurns id text)
    (hafter : after.TakesTurns id text) {key : Key} {entry : Entry}
    (hnew : (world.host id).ownRules.get? key = none)
    (hentry : (after.host id).ownRules.get? key = some entry) :
    entry.name ∉ world.ruleNames id ∧ entry.name ∈ after.ruleNames id := by
  have hmem : (key, entry) ∈ (after.host id).ownRules.entries := Table.mem_of_get? hentry
  have hkey : entry.name.key? = some key := hafter.host.keyed _ hmem
  constructor
  · intro hold
    obtain ⟨other, found, hother, hfound⟩ := htakes.ruleNames_get hold
    cases hkey.symm.trans hother
    cases hnew.symm.trans hfound
  · exact List.mem_map_of_mem (List.mem_map_of_mem hmem)

/-- Where there is text left and rules keep to the law of turns and come to an end, a step goes
through the names that stand in the table when it begins, in order and each at most once. Each that
comes to its turn has the function called that stands under it at that moment. The step ends with
the first that takes the parser further on, that gives a node without doing so, or that fails; and
it complains about the character at the cursor if and only if all took their turns and none did any
of these. A name that is registered meanwhile is first tried by the next step. -/
theorem step_goes_in_turns (htakes : world.TakesTurns id text)
    (hleft : (world.host id).offset < text.toList.length)
    (hkeeps : (turnTaking id).keepsTries rounds depth id (world.ruleNames id) world.later = true) :
    ∃ result after, StepGoes rounds depth id text world result after := by
  have hcan : world.later.CanTry rounds depth id text (world.ruleNames id) :=
    ⟨htakes.later, fun _ hlabel => hlabel, hkeeps⟩
  obtain ⟨result, after, hturns⟩ := hcan.turns hleft
  have hends := hturns.ends hcan
  have hnames : (valuesIn (.record (.rules id))).outcome world.later =
      (.ok (world.ruleNames id), world.later) := rfl
  have hrules : (hostPart id "rules").outcome world.later =
      (.ok (.record (.rules id)), world.later) :=
    hostPart_look "rules" htakes.host.rules world.later.serial
  have hstep : ((Kernel.ofDepth rounds (depth + 3)).sendHost id "_step" []).outcome world =
      (tryAll rounds depth id (world.ruleNames id) >>= fun _ => pure .null).outcome
        world.later := by
    refine (sendHost_free_outcome .step htakes.host.hostClass
      (htakes.unreplaced id _ (by decide)) rfl).trans ?_
    have hbody : (Parser.step (Kernel.ofDepth rounds (depth + 2)) id).outcome world.later =
        (tryAll rounds depth id (world.ruleNames id)).outcome world.later :=
      (outcome_bind_ok hrules).trans (outcome_bind_ok hnames)
    rw [outcome_bind _ _ world.later, ← hbody]
    exact outcome_bind _ _ world.later
  refine ⟨result, after, ?_⟩
  exact
    { outcome := hstep.trans hends.outcome
      ended := hends.ended
      distinct := htakes.host.keyed.nodup_names htakes.host.nodup
      turns := hturns
      only := by
        intro other last hother
        exact Prod.mk.inj ((hother.ends hcan).outcome.symm.trans hends.outcome)
      takesTurns := hends.takesTurns
      goesOn := hends.goesOn
      registered := fun _ _ => htakes.registered hends.takesTurns }

end Step

/-- The rules by which one rule brings in another are registered, and a text is to be read. -/
def growingBegunScript : List Stmt :=
  growingScript ++ [.act (.send "parser" "reset" [.datum (.text "(a)")] []) none]

/-- The world in which that was done. -/
def growingBegun : World :=
  ((Script.runAll (Kernel.ofDepth 10 10) growingBegunScript).outcome .start).2

theorem growingBegun_takesTurns : growingBegun.TakesTurns 0 "(a)" where
  unreplaced := by
    have hkeeps : orderly.Keeps 10 10 growingBegunScript := by decide +kernel
    have hamong : ∀ name ∈ turnNames, name ∈ workingNames := by decide
    obtain ⟨horderly, _⟩ :=
      hkeeps.throughout orderly_upholds orderly_start fun _ horderly => horderly
    exact fun id name hname => horderly.hosts id name (hamong name hname)
  host :=
    { hostClass := by decide +kernel
      input := by rfl
      cursor := ⟨.start, by rfl⟩
      root := ⟨.node 1, by rfl⟩
      rules := by rfl
      keyed := by
        have hkeyed : ∀ entry ∈ (growingBegun.host 0).ownRules.entries,
          entry.2.name.key? = some entry.1 := by decide +kernel
        exact hkeyed
      nodup := by decide +kernel }

theorem step_goes_in_turns_growing :
    growingBegun.TakesTurns 0 "(a)" ∧ (growingBegun.host 0).offset < "(a)".toList.length ∧
      (turnTaking 0).keepsTries 10 7 0 (growingBegun.ruleNames 0) growingBegun.later = true ∧
        ∃ result after, StepGoes 10 7 0 "(a)" growingBegun result after :=
  ⟨growingBegun_takesTurns, by decide +kernel, by decide +kernel,
    step_goes_in_turns growingBegun_takesTurns (by decide +kernel) (by decide +kernel)⟩

end Rulebook
