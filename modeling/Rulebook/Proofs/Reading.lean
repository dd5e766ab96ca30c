import Rulebook.Proofs.Method

/-!
# A parser at work

What a plain parser is at: its input, its cursor, the root of its tree and its list of open nodes.
Each method that rules use is described by what it gives and by the one change it makes to the
world; nothing else of the world is different afterwards.
-/

namespace Rulebook

open Run

/-- What a parser is at. -/
structure Reading where
  input : String
  cursor : Cursor
  root : NodeId
  /-- The number of the list of open nodes. -/
  stack : Nat

/-- The parser is plain and at a reading. -/
structure World.Reads (world : World) (id : HostId) (reading : Reading) : Prop where
  plain : world.Plain id
  input : (world.host id).input = some (.text reading.input)
  cursor : (world.host id).cursor = some reading.cursor
  root : (world.host id).root = some (.node reading.root)
  stack : (world.host id).stack = some (.list (.stack reading.stack))
  opened : reading.stack < world.openStacks.size

/-- A parser that can tell where it is: it is at a cursor in a text, and nothing stands before its
`location`. -/
structure World.IsAt (world : World) (id : HostId) (input : String) (cursor : Cursor) : Prop where
  input : (world.host id).input = some (.text input)
  cursor : (world.host id).cursor = some cursor
  location : (world.host id).hostClass.method? "location" = some (.parser .location)
  unreplaced : (world.host id).members.get? "location" = none

theorem World.Reads.isAt {world : World} {id : HostId} {reading : Reading}
    (hreads : world.Reads id reading) : world.IsAt id reading.input reading.cursor where
  input := hreads.input
  cursor := hreads.cursor
  location := hreads.plain.method? .location
  unreplaced := hreads.plain.members .location

/-- A parser that can consume texts: it is at a cursor, and nothing stands before the method that
moves it. -/
structure World.Consumes (world : World) (id : HostId) (cursor : Cursor) : Prop where
  present : id < world.hosts.size
  cursor : (world.host id).cursor = some cursor
  advance : (world.host id).hostClass.method? "_advance_text" = some (.parser .advance)
  unreplaced : (world.host id).members.get? "_advance_text" = none

theorem World.Reads.consumes {world : World} {id : HostId} {reading : Reading}
    (hreads : world.Reads id reading) : world.Consumes id reading.cursor where
  present := hreads.plain.present
  cursor := hreads.cursor
  advance := hreads.plain.method? .advance
  unreplaced := hreads.plain.members .advance

/-- The world with the cursor of a parser set. -/
def World.setCursor (world : World) (id : HostId) (cursor : Cursor) : World :=
  world.changeHost id fun host => { host with cursor := some cursor }

/-- The world with a node more. -/
def World.addNode (world : World) (cell : NodeCell) : World :=
  { world with forest := world.forest.add cell }

/-- The world with the parent of a node set. -/
def World.setParent (world : World) (child parent : NodeId) : World :=
  world.changeCell child fun cell => { cell with parent := .node parent }

/-- The world with a node attached below another. -/
def World.attach (world : World) (child parent : NodeId) : World :=
  (world.setParent child parent).changeItems (.children parent) fun children =>
    children.push (.node child)

variable {world : World} {id : HostId} {reading : Reading} {rounds depth : Nat}

namespace World

theorem host_setCursor (cursor : Cursor) (hpresent : id < world.hosts.size) :
    (world.setCursor id cursor).host id = { world.host id with cursor := some cursor } := by
  rw [setCursor, host_changeHost, if_pos ⟨rfl, hpresent⟩]

/-- Being at a reading is about the host, and about the list of open nodes being there. -/
theorem Reads.congr {other : World} (hreads : world.Reads id reading)
    (hhosts : other.hosts = world.hosts)
    (hstacks : other.openStacks.size = world.openStacks.size) : other.Reads id reading := by
  have hhost : other.host id = world.host id := by simp only [host, hhosts]
  exact
    { plain := hreads.plain.congr (by rw [hhosts]) (by rw [hhost]) (by rw [hhost])
      input := by rw [hhost]; exact hreads.input
      cursor := by rw [hhost]; exact hreads.cursor
      root := by rw [hhost]; exact hreads.root
      stack := by rw [hhost]; exact hreads.stack
      opened := hstacks ▸ hreads.opened }

theorem Reads.setCursor (hreads : world.Reads id reading) (cursor : Cursor) :
    (world.setCursor id cursor).Reads id { reading with cursor } := by
  have hhost := host_setCursor cursor hreads.plain.present
  exact
    { plain := hreads.plain.congr (by simp [World.setCursor, changeHost]) (by rw [hhost])
        (by rw [hhost])
      input := by rw [hhost]; exact hreads.input
      cursor := by rw [hhost]
      root := by rw [hhost]; exact hreads.root
      stack := by rw [hhost]; exact hreads.stack
      opened := hreads.opened }

/-- A change of a host is told by what it makes of that host. -/
theorem changeHost_congr {change change' : Host → Host}
    (hsame : change (world.host id) = change' (world.host id)) :
    world.changeHost id change = world.changeHost id change' := by
  have hhosts : world.hosts.modify id change = world.hosts.modify id change' := by
    apply Array.ext (by simp)
    intro index _ hindex
    rw [Array.getElem_modify, Array.getElem_modify]
    split
    next heq =>
      subst heq
      have hinside : id < world.hosts.size := by simpa using hindex
      have hhost : world.host id = world.hosts[id] := by simp [host, hinside]
      rwa [hhost] at hsame
    next => rfl
  simp only [changeHost, hhosts]

theorem changeHost_self {change : Host → Host} (hsame : change (world.host id) = world.host id) :
    world.changeHost id change = world := by
  have hhosts : world.hosts.modify id (fun host => host) = world.hosts := by
    apply Array.ext (by simp)
    intro index _ _
    rw [Array.getElem_modify]
    split <;> rfl
  calc world.changeHost id change
    _ = world.changeHost id fun host => host := changeHost_congr hsame
    _ = world := by simp only [changeHost, hhosts]

/-- Of two changes of a host the second one begins with what the first one makes of it. -/
theorem changeHost_changeHost (first second : Host → Host) :
    (world.changeHost id first).changeHost id second = world.changeHost id (second ∘ first) := by
  have hboth : (world.hosts.modify id first).modify id second =
      world.hosts.modify id (second ∘ first) := by
    apply Array.ext (by simp)
    intro index _ hindex
    simp only [Array.getElem_modify]
    split <;> rfl
  simp only [changeHost, hboth]

theorem setCursor_self {cursor : Cursor} (hcursor : (world.host id).cursor = some cursor) :
    world.setCursor id cursor = world := by
  refine changeHost_self ?_
  rw [← hcursor]

end World

/-! ## Parts of a host -/

theorem hostPart_look {value : Value} (name : String)
    (hpart : (world.host id).attribute? name = some value) (serial : Nat) :
    (hostPart id name).outcome (world.withSerial serial) =
      (.ok value, world.withSerial serial) := by
  have hpart' : ((world.withSerial serial).host id).attribute? name = some value := hpart
  simp only [hostPart, outcome_bind, outcome_host, hpart', outcome_pure]

theorem cursor_look {cursor : Cursor} (hcursor : (world.host id).cursor = some cursor)
    (lacking : String) (serial : Nat) :
    (Run.cursor id lacking).outcome (world.withSerial serial) =
      (.ok cursor, world.withSerial serial) := by
  have hcursor' : ((world.withSerial serial).host id).cursor = some cursor := hcursor
  simp only [Run.cursor, outcome_bind, outcome_host, hcursor', outcome_pure]

/-! ## Places -/

theorem location_gives {input : String} {cursor : Cursor} (hat : world.IsAt id input cursor) :
    ((Kernel.ofDepth rounds (depth + 1)).sendHost id "location" []).Gives world
      fun value after => (∃ serial, value = .ofCursor serial cursor) ∧ after = world := by
  refine sendFree_ends .location hat.location hat.unreplaced [] rfl ?_
  refine Ends.look cursor (cursor_look hat.cursor _) ?_
  refine Ends.fresh fun serial => ?_
  exact Gives.pure ⟨⟨serial, rfl⟩, rfl⟩

theorem position_gives (hreads : world.Reads id reading) :
    ((Kernel.ofDepth rounds (depth + 2)).sendHost id "position" []).Gives world
      fun value after =>
        (∃ serial start, value = .stamp serial id (.ofCursor start reading.cursor)) ∧
          after = world := by
  refine sendHost_ends hreads.plain .position [] rfl ?_
  refine Gives.bind (location_gives hreads.isAt) ?_
  rintro _ _ ⟨⟨start, rfl⟩, rfl⟩
  refine Ends.fresh fun serial => ?_
  exact Gives.pure ⟨⟨serial, start, rfl⟩, rfl⟩

/-! ## Nodes -/

/-- A new node with the span from where a stamp was made to where the cursor is. -/
def NodeCell.made (id : NodeId) (label val : Value) (span : Nat) (start stop : Value) : NodeCell :=
  .fresh id label val (.span span start stop)

theorem stamp_gives (hreads : world.Reads id reading) (serial : Nat) (start : Value)
    (node : NodeId) :
    ((Kernel.ofDepth rounds (depth + 2)).call (.stamp serial id start) [.node node]).Gives world
      fun value after => value = .node node ∧ ∃ span stop, after = world.changeCell node
        fun cell => { cell with position := .span span start (.ofCursor stop reading.cursor) } := by
  have hbind : (Args.of [.node node]).bind [.needed "node"] = pure [.node node] :=
    Args.bind_of_length rfl
  rw [call_eq, callValue, hbind, pure_bind]
  refine Gives.bind (location_gives hreads.isAt) ?_
  rintro _ world ⟨⟨stop, rfl⟩, rfl⟩
  refine Ends.fresh fun span => ?_
  refine Ends.change () (world.changeCell node fun cell =>
    { cell with position := .span span start (.ofCursor stop reading.cursor) }) (fun _ => rfl) ?_
  exact Gives.pure ⟨rfl, span, stop, rfl⟩

/-- Running the method for new nodes makes one that is stamped and not attached. -/
theorem newNode_gives (hreads : world.Reads id reading) (serial : Nat) (start label val : Value) :
    (Parser.newNode (Kernel.ofDepth rounds (depth + 2)) (.stamp serial id start) label val).Gives
      world fun value after => value = .node world.forest.size ∧ ∃ span stop,
        after = world.addNode (.made world.forest.size label val span start
          (.ofCursor stop reading.cursor)) := by
  have hadded : (world.addNode (.fresh world.forest.size label val .null)).Reads id reading :=
    hreads.congr rfl rfl
  refine Ends.change world.forest.size
    (world.addNode (.fresh world.forest.size label val .null)) (fun _ => rfl) ?_
  refine Gives.mono (stamp_gives hadded serial start world.forest.size) ?_
  rintro value after ⟨hvalue, span, stop, rfl⟩
  refine ⟨hvalue, span, stop, ?_⟩
  simp only [World.addNode, World.changeCell, Forest.modify_add]
  rfl

/-! ## Matches -/

/-- A value is a pattern or the source of one. -/
def Value.Compiles (source : Value) (pattern : Pattern) : Prop :=
  ∀ world, (compilePattern source (.text "")).outcome world = (.ok pattern, world)

theorem Value.compiles_pattern (pattern : Pattern) : (Value.pattern pattern).Compiles pattern :=
  fun _ => rfl

theorem Value.compiles_text {source : String} {pattern : Pattern}
    (hcompile : Pattern.compile .extended source false (.ofLetters []) = .ok pattern) :
    (Value.text source).Compiles pattern := by
  intro world
  change (Run.compile .extended source false (.ofLetters [])).outcome world = _
  rw [Run.compile, hcompile]
  rfl

theorem charsLeft_look (hreads : world.Reads id reading) (serial : Nat) :
    (Parser.charsLeft id false).outcome (world.withSerial serial) =
      (.ok (reading.input.toList.drop reading.cursor.offset), world.withSerial serial) := by
  simp only [Parser.charsLeft, outcome_bind, hostPart_look "input" hreads.input,
    cursor_look hreads.cursor, outcome_pure]

/-- Consuming a text moves the cursor behind it and does nothing else. -/
theorem consume_gives {cursor : Cursor} (hconsumes : world.Consumes id cursor) (text : String) :
    ((Kernel.ofDepth rounds (depth + 1)).sendHost id "_advance_text" [.text text]).Gives world
      fun _ after => after = world.setCursor id (cursor.advance text.toList) := by
  refine sendFree_ends .advance hconsumes.advance hconsumes.unreplaced [_] rfl ?_
  refine Ends.change () (world.setCursor id (cursor.advance text.toList)) (fun serial => ?_)
    (Gives.pure rfl)
  simp only [Parser.advance, outcome_bind, cursor_look hconsumes.cursor, outcome_changeHost]
  rfl

theorem advance_gives (hreads : world.Reads id reading) (consumed : List Char) :
    ((Kernel.ofDepth rounds (depth + 1)).sendHost id "_advance_text" [.ofChars consumed]).Gives
      world fun _ after => after = world.setCursor id (reading.cursor.advance consumed) := by
  have hgives : ((Kernel.ofDepth rounds (depth + 1)).sendHost id "_advance_text"
      [.text (String.ofList consumed)]).Gives world fun _ after =>
        after = world.setCursor id (reading.cursor.advance (String.ofList consumed).toList) :=
    consume_gives hreads.consumes _
  rwa [String.toList_ofList] at hgives

variable {source : Value} {pattern : Pattern}

theorem match_gives_null (hreads : world.Reads id reading) (hcompiles : source.Compiles pattern)
    (htext : pattern.binary = false)
    (hmatch : pattern.match? (reading.input.toList.drop reading.cursor.offset) = none) :
    ((Kernel.ofDepth rounds (depth + 2)).sendHost id "match" [source]).Gives world
      fun value after => value = .null ∧ after = world := by
  refine sendHost_ends hreads.plain .match [source] rfl ?_
  refine Ends.look pattern (fun _ => hcompiles _) ?_
  rw [htext]
  refine Ends.look _ (charsLeft_look hreads) ?_
  rw [hmatch]
  exact Gives.pure ⟨rfl, rfl⟩

theorem match_gives_found (hreads : world.Reads id reading) (hcompiles : source.Compiles pattern)
    (htext : pattern.binary = false) {found : Pattern.Match}
    (hmatch : pattern.match? (reading.input.toList.drop reading.cursor.offset) = some found) :
    ((Kernel.ofDepth rounds (depth + 2)).sendHost id "match" [source]).Gives world
      fun value after => (∃ serial, value = .found serial pattern found) ∧
        after = world.setCursor id (reading.cursor.advance found.text) := by
  refine sendHost_ends hreads.plain .match [source] rfl ?_
  refine Ends.look pattern (fun _ => hcompiles _) ?_
  rw [htext]
  refine Ends.look _ (charsLeft_look hreads) ?_
  rw [hmatch]
  refine Ends.fresh fun serial => ?_
  have hvalue : pattern.valueOf found.text = .ofChars found.text := by
    rw [Pattern.valueOf, htext]
    rfl
  rw [hvalue]
  refine Gives.bind (advance_gives hreads found.text) ?_
  rintro _ _ rfl
  exact Gives.pure ⟨⟨serial, rfl⟩, rfl⟩

end Rulebook
