import Rulebook.Proofs.Reading

/-!
# Opening and closing nodes

How a plain parser attaches, opens and closes nodes. The innermost open node is the last of the
list, and the list never loses its first node, because closing refuses a list of one.
-/

namespace Rulebook

open Run

/-- A node that is there, with the list and the record it was made with and nothing else. -/
structure World.PlainNode (world : World) (node : NodeId) : Prop where
  present : node < world.forest.size
  children : (world.cell node).children = .list (.children node)
  notes : (world.cell node).notes = .record (.notes node)
  extras : (world.cell node).extras = .empty

/-- The open nodes of a parser, with `top` the innermost one. -/
structure World.Opened (world : World) (reading : Reading) (below : Array Value) (top : NodeId) :
    Prop where
  items : world.items (.stack reading.stack) = below.push (.node top)
  plain : world.PlainNode top

/-- The world with a new node as the last child of another. -/
def World.addChild (world : World) (parent : NodeId) (cell : NodeCell) : World :=
  (world.addNode cell).changeItems (.children parent) fun children =>
    children.push (.node world.forest.size)

/-- Where a complaint points that is made at a reading. -/
def Reading.pointer (reading : Reading) : Pointer where
  line := toString reading.cursor.line
  column := toString reading.cursor.column
  snippet := Text.caretSnippet reading.input.toList reading.cursor.offset

/-- The world with a node opened. -/
def World.openNode (world : World) (reading : Reading) (node : NodeId) : World :=
  world.changeItems (.stack reading.stack) fun opened => opened.push (.node node)

/-- The world with the innermost open node closed. -/
def World.closeNode (world : World) (reading : Reading) : World :=
  world.changeItems (.stack reading.stack) Array.pop

variable {world : World} {id : HostId} {reading : Reading} {rounds depth : Nat}
  {below : Array Value} {top : NodeId}

/-! ## The innermost open node -/

theorem placeAt_last {count : Nat} (hcount : 0 < count) (missing : Fault) :
    placeAt count missing (.int (-1)) = pure (count - 1) := by
  have hplace : (-1 : Int) + count = ((count - 1 : Nat) : Int) := by omega
  have hlast : placeOf? count (-1) = some (count - 1) := by
    simp only [placeOf?, show (-1 : Int) < 0 by decide, if_true, hplace]
    rw [if_pos ⟨by omega, by omega⟩]
    rfl
  simp only [placeAt, Value.index?]
  rw [if_neg (by decide), hlast]

theorem atIndex_last (values : Array Value) (last : Value) (missing : Fault) :
    atIndex (values.push last) missing (.int (-1)) = pure last := by
  rw [atIndex, placeAt_last (by simp)]
  simp

theorem getItem_last {world : World} {ref : ListRef} (hsize : 0 < (world.items ref).size) :
    (getItem (.list ref) (.int (-1))).outcome world =
      (.ok (world.items ref).back!, world) := by
  have hpush := Array.eq_push_pop_back!_of_size_ne_zero (Nat.ne_of_gt hsize)
  rw [getItem, outcome_bind_ok (outcome_items _ _), hpush, atIndex_last, ← hpush, outcome_pure]

theorem prev_gives (hreads : world.Reads id reading)
    (hitems : world.items (.stack reading.stack) = below.push (.node top)) :
    ((Kernel.ofDepth rounds (depth + 1)).sendHost id "prev" []).Gives world
      fun value after => value = .node top ∧ after = world := by
  refine sendHost_ends hreads.plain .prev [] rfl ?_
  refine Ends.look _ (hostPart_look "stack" hreads.stack) ?_
  refine Ends.look (below.push (.node top)) (fun _ => ?_) ?_
  · rw [outcome_items]
    exact congrArg (fun values => (Except.ok values, _)) hitems
  · rw [atIndex_last]
    exact Gives.pure ⟨rfl, rfl⟩

/-! ## Attaching -/

theorem World.PlainNode.methods (hplain : world.PlainNode top) (name : String) :
    (world.cell top).extras.get? name = none := by
  rw [hplain.extras]
  rfl

theorem nodeAttribute_outcome {name : String} (hname : name ∈ nodeMethods)
    (hmethods : (world.cell top).extras.get? name = none) :
    (nodeAttribute top name).outcome world =
      (.ok (.method world.serial (.node top) name), world.withSerial (world.serial + 1)) := by
  have hname' : name = "define" ∨ name = "add_node" := by simpa [nodeMethods] using hname
  have hattribute : (world.cell top).attribute? name = none := by
    rcases hname' with rfl | rfl <;> exact hmethods
  have hmatch : name ≠ "match" := by rcases hname' with rfl | rfl <;> decide
  have hfirst : name ≠ "first" := by rcases hname' with rfl | rfl <;> decide
  rw [nodeAttribute, outcome_bind, outcome_cell]
  simp only [hmatch, hfirst, hattribute, hname, if_true, if_false]
  rfl

theorem sendNode_ends {post : Except Fault Value → World → Prop} {name : String}
    (hname : name ∈ nodeMethods) (hmethods : (world.cell top).extras.get? name = none)
    (values : List Value)
    (hrun : (callNode (Kernel.ofDepth rounds depth) top name (.of values)).Ends world post) :
    ((Kernel.ofDepth rounds (depth + 1)).send (.node top) name values).Ends world post := by
  intro serial
  have hserial : ((world.withSerial serial).cell top).extras.get? name = none := hmethods
  change ∃ result after later, Run.outcome (nodeAttribute top name >>= fun callable =>
    callValue (Kernel.ofDepth rounds depth) callable (.of values)) _ = _ ∧ _
  rw [outcome_bind, nodeAttribute_outcome hname hserial]
  exact hrun _

/-- Telling a node its parent is a change of that node alone. -/
theorem setParent_outcome (world : World) (child parent : NodeId) :
    (setAttribute (.node child) "parent" (.node parent)).outcome world =
      (.ok (), world.setParent child parent) := rfl

theorem parent_outcome (world : World) (child : NodeId) :
    (attributeOf (.node child) "parent").outcome world =
      (.ok (world.cell child).parent, world) := rfl

theorem children_setParent (world : World) (child parent node : NodeId) :
    ((world.setParent child parent).cell node).children = (world.cell node).children := by
  simp only [World.setParent, World.changeCell, World.cell, Forest.cell_modify]
  split <;> rfl

section Attaching

variable {ref : ListRef}

/-- A node that keeps its children in a list gets another one below it. -/
theorem callNode_addNode {world : World} (kernel : Kernel) {parent : NodeId} (child : NodeId)
    (hchildren : (world.cell parent).children = .list ref) :
    (callNode kernel parent "add_node" (.of [.node child])).outcome world =
      (.ok (.node child), (world.setParent child parent).changeItems ref fun children =>
        children.push (.node child)) := by
  have hbind : (Args.of [.node child]).bind [.needed "node"] = pure [.node child] :=
    Args.bind_of_length rfl
  simp only [callNode, hbind, pure_bind]
  rw [outcome_bind_ok (setParent_outcome _ child parent), outcome_bind_ok (outcome_cell _ _),
    (children_setParent world child parent parent).trans hchildren]
  rfl

theorem addNode_gives (hchildren : (world.cell top).children = .list ref)
    (hmethods : (world.cell top).extras.get? "add_node" = none) (child : NodeId) :
    ((Kernel.ofDepth rounds (depth + 1)).send (.node top) "add_node" [.node child]).Gives world
      fun _ after => after = (world.setParent child top).changeItems ref fun children =>
        children.push (.node child) := by
  refine sendNode_ends (by decide) hmethods _ fun serial => ?_
  have hchildren' : ((world.withSerial serial).cell top).children = .list ref := hchildren
  have hadded := callNode_addNode (Kernel.ofDepth rounds depth) child hchildren'
  exact ⟨.ok (.node child), _, serial, hadded.trans (by cases ref <;> rfl), _, rfl, rfl⟩

theorem attachLoose_gives_attached (kernel : Kernel) (node : NodeId)
    (hparent : (world.cell node).parent ≠ .null) :
    (Parser.attachLoose kernel id (.node node)).Gives world fun _ after => after = world := by
  refine Ends.look (world.cell node).parent (fun _ => rfl) ?_
  split
  next heq => exact absurd heq hparent
  next => exact Gives.pure rfl

/-- A node without a parent goes below the innermost open node. -/
theorem attachLoose_gives_loose (hreads : world.Reads id reading)
    (hitems : world.items (.stack reading.stack) = below.push (.node top))
    (hchildren : (world.cell top).children = .list ref)
    (hmethods : (world.cell top).extras.get? "add_node" = none) (child : NodeId)
    (hparent : (world.cell child).parent = .null) :
    (Parser.attachLoose (Kernel.ofDepth rounds (depth + 1)) id (.node child)).Gives world
      fun _ after => after = (world.setParent child top).changeItems ref fun children =>
        children.push (.node child) := by
  refine Ends.look .null (fun _ => ?_) ?_
  · exact congrArg (fun value => (Except.ok value, _)) hparent
  · refine Gives.bind (prev_gives hreads hitems) ?_
    rintro _ world ⟨rfl, rfl⟩
    refine Gives.bind (addNode_gives hchildren hmethods child) ?_
    rintro _ _ rfl
    exact Gives.pure rfl

end Attaching

/-! ## A node that was just made -/

section New

variable (world) (cell : NodeCell)

theorem changeRecord_addNode (change : Record → Record) :
    (world.addNode cell).changeRecord (.notes world.forest.size) change =
      world.addNode { cell with ownNotes := change cell.ownNotes } := by
  simp only [World.addNode, World.changeRecord, World.changeCell, Forest.modify_add]

/-- A new node that is attached could have been made with its parent. -/
theorem attach_addNode (parent : NodeId) :
    (world.addNode cell).attach world.forest.size parent =
      world.addChild parent { cell with parent := .node parent } := by
  simp only [World.attach, World.addChild, World.addNode, World.setParent, World.changeCell,
    Forest.modify_add]

theorem cell_addNode (node : NodeId) :
    (world.addNode cell).cell node = if node = world.forest.size then cell else world.cell node :=
  Forest.cell_add _ _ _

theorem cell_addNode_self : (world.addNode cell).cell world.forest.size = cell := by
  rw [cell_addNode, if_pos rfl]

end New

theorem World.PlainNode.addNode (hplain : world.PlainNode top) (cell : NodeCell) :
    (world.addNode cell).PlainNode top := by
  have hold : (world.addNode cell).cell top = world.cell top := by
    rw [cell_addNode, if_neg (Nat.ne_of_lt hplain.present)]
  refine ⟨?_, ?_, ?_, ?_⟩
  · rw [World.addNode, Forest.size_add]
    exact Nat.lt_succ_of_lt hplain.present
  · rw [hold]; exact hplain.children
  · rw [hold]; exact hplain.notes
  · rw [hold]; exact hplain.extras

theorem World.Opened.addNode (hopened : world.Opened reading below top) (cell : NodeCell) :
    (world.addNode cell).Opened reading below top :=
  ⟨hopened.items, hopened.plain.addNode cell⟩

theorem World.Opened.setCursor (hopened : world.Opened reading below top) (cursor : Cursor) :
    (world.setCursor id cursor).Opened { reading with cursor } below top :=
  ⟨hopened.items, hopened.plain.present, hopened.plain.children, hopened.plain.notes,
    hopened.plain.extras⟩

/-- A new node that is loose goes below the innermost open node, which keeps its own children. -/
theorem attachNew_gives_below (hreads : world.Reads id reading)
    (hitems : world.items (.stack reading.stack) = below.push (.node top))
    (htop : top < world.forest.size)
    (hchildren : (world.cell top).children = .list (.children top))
    (hmethods : (world.cell top).extras.get? "add_node" = none) (cell : NodeCell)
    (hparent : cell.parent = .null) :
    (Parser.attachLoose (Kernel.ofDepth rounds (depth + 1)) id (.node world.forest.size)).Gives
      (world.addNode cell) fun _ after =>
        after = world.addChild top { cell with parent := .node top } := by
  have hadded : (world.addNode cell).Reads id reading := hreads.congr rfl rfl
  have hloose : ((world.addNode cell).cell world.forest.size).parent = .null := by
    rw [cell_addNode_self]
    exact hparent
  have hold : (world.addNode cell).cell top = world.cell top := by
    rw [cell_addNode, if_neg (Nat.ne_of_lt htop)]
  rw [← attach_addNode]
  exact attachLoose_gives_loose hadded hitems (hold ▸ hchildren) (hold ▸ hmethods)
    world.forest.size hloose

theorem attachNew_gives (hreads : world.Reads id reading)
    (hopened : world.Opened reading below top) (cell : NodeCell) (hparent : cell.parent = .null) :
    (Parser.attachLoose (Kernel.ofDepth rounds (depth + 1)) id (.node world.forest.size)).Gives
      (world.addNode cell) fun _ after =>
        after = world.addChild top { cell with parent := .node top } :=
  attachNew_gives_below hreads hopened.items hopened.plain.present hopened.plain.children
    (hopened.plain.methods _) cell hparent

/-! ## Opening -/

/-- Opening a loose node attaches it first. -/
theorem push_gives (hreads : world.Reads id reading) (hopened : world.Opened reading below top)
    (child : NodeId) (hparent : (world.cell child).parent = .null) :
    ((Kernel.ofDepth rounds (depth + 2)).sendHost id "push" [.node child]).Gives world
      fun value after => value = .node child ∧
        after = (world.attach child top).openNode reading child := by
  refine sendHost_ends hreads.plain .push [_] rfl ?_
  refine Gives.bind (attachLoose_gives_loose hreads hopened.items hopened.plain.children
    (hopened.plain.methods _) child hparent) ?_
  rintro _ _ rfl
  have hattached : (world.attach child top).Reads id reading := hreads.congr rfl rfl
  refine Ends.look _ (hostPart_look "stack" hattached.stack) ?_
  refine Ends.change () ((world.attach child top).openNode reading child) (fun _ => rfl) ?_
  exact Gives.pure ⟨rfl, rfl⟩

/-! ## Complaints -/

section Complaints

variable {input : String} {cursor : Cursor}

theorem snippet_look (hinput : (world.host id).input = some (.text input))
    (hcursor : (world.host id).cursor = some cursor) (serial : Nat) :
    (Parser.snippet id).outcome (world.withSerial serial) =
      (.ok (Text.caretSnippet input.toList cursor.offset), world.withSerial serial) := by
  refine (outcome_bind_ok (hostPart_look "input" hinput serial)).trans ?_
  exact outcome_bind_ok (cursor_look hcursor "_i" serial)

/-- A complaint made with the present location points at the cursor. -/
theorem pointer_look (hinput : (world.host id).input = some (.text input))
    (hcursor : (world.host id).cursor = some cursor) (mark serial : Nat) :
    (Parser.pointer id (.ofCursor mark cursor)).outcome (world.withSerial serial) =
      (.ok ⟨toString cursor.line, toString cursor.column,
          Text.caretSnippet input.toList cursor.offset⟩, world.withSerial serial) := by
  have htext : ∀ count : Nat, (plainText (.int count)).outcome (world.withSerial serial) =
      (.ok (toString count), world.withSerial serial) := fun _ => rfl
  have hline : (attributeOf (.ofCursor mark cursor) "line").outcome
      (world.withSerial serial) = (.ok (.int cursor.line), world.withSerial serial) := rfl
  have hcolumn : (attributeOf (.ofCursor mark cursor) "column").outcome
      (world.withSerial serial) = (.ok (.int cursor.column), world.withSerial serial) := rfl
  refine (outcome_bind_ok hline).trans ?_
  refine (outcome_bind_ok (htext cursor.line)).trans ?_
  refine (outcome_bind_ok hcolumn).trans ?_
  refine (outcome_bind_ok (htext cursor.column)).trans ?_
  exact outcome_bind_ok (snippet_look hinput hcursor serial)

/-- A complaint about a label that is not open shows the label and points at the cursor. -/
theorem noOpenNode_shows (hat : world.IsAt id input cursor) (label : Value) :
    (Parser.noOpenNode (Kernel.ofDepth rounds (depth + 1)) id label).Fails world
      fun fault after => (∃ serial, fault = .noOpenNode ((world.withSerial serial).plainText label)
        ⟨toString cursor.line, toString cursor.column,
          Text.caretSnippet input.toList cursor.offset⟩) ∧ after = world := by
  refine Gives.bind (location_gives hat) ?_
  rintro _ world ⟨⟨mark, rfl⟩, rfl⟩ serial
  have htext : (plainText label).outcome (world.withSerial serial) =
      (.ok ((world.withSerial serial).plainText label), world.withSerial serial) := rfl
  refine ⟨_, world, serial, ?_, _, rfl, ⟨serial, rfl⟩, rfl⟩
  refine (outcome_bind_ok htext).trans ?_
  exact (outcome_bind_ok (pointer_look hat.input hat.cursor mark serial)).trans (outcome_fail _ _)

theorem noOpenNode_fails (hreads : world.Reads id reading) (label : String) :
    (Parser.noOpenNode (Kernel.ofDepth rounds (depth + 1)) id (.text label)).Fails world
      fun fault after => fault = .noOpenNode label reading.pointer ∧ after = world := by
  refine Fails.mono (noOpenNode_shows hreads.isAt (.text label)) ?_
  rintro _ _ ⟨⟨_, rfl⟩, rfl⟩
  exact ⟨rfl, rfl⟩

end Complaints

/-! ## Closing -/

theorem equal_text_look (first second : String) (serial : Nat) :
    (equal (.text first) (.text second)).outcome (world.withSerial serial) =
      (.ok (first == second), world.withSerial serial) := by
  have hequal : ∀ world : World, world.equal? (.text first) (.text second) =
      some (first == second) := by
    intro world
    change (if (first == second) = true then some true else some false) = _
    cases first == second <;> rfl
  rw [equal, outcome_bind, outcome_get]
  dsimp only
  rw [hequal]
  rfl

theorem pop_start {post : Except Fault Value → World → Prop} (hreads : world.Reads id reading)
    (label : String)
    (hrun : (if (world.items (.stack reading.stack)).size < 2 then
        Parser.noOpenNode (Kernel.ofDepth rounds depth) id (.text label)
      else do
        let top ← getItem (.list (.stack reading.stack)) (.int (-1))
        if ← equal (← attributeOf top "type") (.text label) then
          takeLast (.list (.stack reading.stack))
        else Parser.noOpenNode (Kernel.ofDepth rounds depth) id (.text label)).Ends world post) :
    ((Kernel.ofDepth rounds (depth + 1)).sendHost id "pop" [.text label]).Ends world post := by
  refine sendHost_ends hreads.plain .pop [_] rfl ?_
  refine Ends.look _ (hostPart_look "stack" hreads.stack) ?_
  exact Ends.look (world.items (.stack reading.stack)).size (fun _ => rfl) hrun

/-- The root cannot be closed, even under its own label. -/
theorem pop_fails_alone (hreads : world.Reads id reading)
    (halone : (world.items (.stack reading.stack)).size < 2) (label : String) :
    ((Kernel.ofDepth rounds (depth + 2)).sendHost id "pop" [.text label]).Fails world
      fun fault after => fault = .noOpenNode label reading.pointer ∧ after = world := by
  refine pop_start hreads label ?_
  rw [if_pos halone]
  exact noOpenNode_fails hreads label

section Top

variable {label other : String}

theorem getTop_look (hitems : world.items (.stack reading.stack) = below.push (.node top))
    (serial : Nat) :
    (getItem (.list (.stack reading.stack)) (.int (-1))).outcome (world.withSerial serial) =
      (.ok (.node top), world.withSerial serial) := by
  have hlook : (items (.stack reading.stack)).outcome (world.withSerial serial) =
      (.ok (below.push (.node top)), world.withSerial serial) :=
    congrArg (fun values => (Except.ok values, world.withSerial serial)) hitems
  refine (outcome_bind_ok hlook).trans ?_
  rw [atIndex_last]
  rfl

theorem typeOfTop_look (hlabel : (world.cell top).label = .text other) (serial : Nat) :
    (attributeOf (.node top) "type").outcome (world.withSerial serial) =
      (.ok (.text other), world.withSerial serial) :=
  congrArg (fun value => (Except.ok value, world.withSerial serial)) hlabel

/-- Only the innermost open node can be closed. -/
theorem pop_fails_other (hreads : world.Reads id reading)
    (hopened : world.Opened reading below top) (hlabel : (world.cell top).label = .text other)
    (hne : other ≠ label) :
    ((Kernel.ofDepth rounds (depth + 2)).sendHost id "pop" [.text label]).Fails world
      fun fault after => fault = .noOpenNode label reading.pointer ∧ after = world := by
  refine pop_start hreads label ?_
  split
  next => exact noOpenNode_fails hreads label
  next =>
    refine Ends.look _ (getTop_look hopened.items) ?_
    refine Ends.look _ (typeOfTop_look hlabel) ?_
    refine Ends.look _ (equal_text_look other label) ?_
    rw [if_neg (by simpa using hne)]
    exact noOpenNode_fails hreads label

/-- Closing the innermost open node takes it off the list and leaves it in the tree. -/
theorem pop_gives (hreads : world.Reads id reading) (hopened : world.Opened reading below top)
    (hlabel : (world.cell top).label = .text label) (hbelow : below ≠ #[]) :
    ((Kernel.ofDepth rounds (depth + 1)).sendHost id "pop" [.text label]).Gives world
      fun value after => value = .node top ∧ after = world.closeNode reading := by
  refine pop_start hreads label ?_
  have hsize : ¬ (world.items (.stack reading.stack)).size < 2 := by
    have hpositive : 0 < below.size := Array.size_pos_iff.mpr hbelow
    rw [hopened.items, Array.size_push]
    omega
  rw [if_neg hsize]
  refine Ends.look _ (getTop_look hopened.items) ?_
  refine Ends.look _ (typeOfTop_look hlabel) ?_
  refine Ends.look _ (equal_text_look label label) ?_
  rw [if_pos (by simp)]
  refine Ends.look (below.push (.node top)) (fun _ => ?_) ?_
  · exact congrArg (fun values => (Except.ok values, _)) hopened.items
  · rw [Array.back?_push]
    refine Ends.change () (world.closeNode reading) (fun _ => rfl) ?_
    exact Gives.pure ⟨rfl, rfl⟩

end Top

end Rulebook
