import Rulebook.Proofs.Course
import Rulebook.Proofs.QuietParts
import Rulebook.Proofs.Store

/-!
# Parsing forgets

A parse by captured patterns and by rules for brackets comes to the same whatever the parser did
before: it gives an equal tree or fails alike, and leaves its parser at the same place with nodes of
the same kinds open. Of the nodes that were there before it changes none.
-/

namespace Rulebook

open Run Script

/-! ## Parsers in use -/

/-- A node that others can be attached to: it keeps its children in a list, and nothing stands
before its method. -/
structure World.Attachable (world : World) (node : NodeId) : Prop where
  present : node < world.forest.size
  children : ∃ ref, (world.cell node).children = .list ref
  methods : (world.cell node).extras.get? "add_node" = none

/-- A parser in use reads a text by the rules of a table, and others can be attached to the nodes
that are open. -/
structure World.InUse (world : World) (id : HostId) (table : Table String Rule)
    (reading : Reading) : Prop where
  reads : world.Reads id reading
  ruled : world.Ruled id table
  nonempty : world.items (.stack reading.stack) ≠ #[]
  nodes : ∀ item ∈ world.items (.stack reading.stack), ∃ node, item = .node node ∧
    world.Attachable node

/-- A call by which a parser is made to read. -/
inductive World.ReadingCall (world : World) : ParserMethod → List Value → Prop
  | reset (text : String) : ReadingCall world .reset [.text text]
  | match (source : Value) : ReadingCall world .match [source]
  | push {node : NodeId} (hnode : world.Attachable node) : ReadingCall world .push [.node node]
  | apply (label : String) : ReadingCall world .apply [.text label]
  | pop (label : Value) : ReadingCall world .pop [label]
  | parse (text : String) : ReadingCall world .parse [.text text]

/-- One world comes from another by calls that make a parser read, however they end. -/
inductive World.Reaches (id : HostId) (world : World) : World → Prop
  | start : Reaches id world world
  | call {before after : World} {method : ParserMethod} {values : List Value}
      {rounds depth : Nat} {result : Except Fault Value} (hbefore : Reaches id world before)
      (hcall : before.ReadingCall method values)
      (houtcome : ((Kernel.ofDepth rounds (depth + 7)).sendHost id method.name values).outcome
        before = (result, after)) : Reaches id world after

section InUse

variable {world after : World} {id : HostId} {table : Table String Rule} {reading : Reading}
  {rounds depth : Nat} {node top child : NodeId}

namespace World

theorem Attachable.of_cell (hattachable : world.Attachable node)
    (hsize : world.forest.size ≤ after.forest.size)
    (hchildren : (after.cell node).children = (world.cell node).children)
    (hextras : (after.cell node).extras = (world.cell node).extras) : after.Attachable node where
  present := Nat.lt_of_lt_of_le hattachable.present hsize
  children := hchildren ▸ hattachable.children
  methods := hextras ▸ hattachable.methods

theorem Attachable.addNode (hattachable : world.Attachable node) (cell : NodeCell) :
    (world.addNode cell).Attachable node := by
  have hcell : (world.addNode cell).cell node = world.cell node := by
    rw [cell_addNode, if_neg (Nat.ne_of_lt hattachable.present)]
  exact hattachable.of_cell (by simp [World.addNode]) (by rw [hcell]) (by rw [hcell])

theorem Attachable.setParent (hattachable : world.Attachable node) (child parent : NodeId) :
    (world.setParent child parent).Attachable node := by
  refine hattachable.of_cell (by simp [World.setParent, changeCell])
    (children_setParent world child parent node) ?_
  simp only [World.setParent, changeCell, cell, Forest.cell_modify]
  split <;> rfl

theorem Attachable.changeItems (hattachable : world.Attachable node) (ref : ListRef)
    (change : Array Value → Array Value) : (world.changeItems ref change).Attachable node := by
  have hcell := world.cell_changeItems ref change node
  refine hattachable.of_cell (Nat.le_of_eq (world.sameSizes_changeItems ref change).forest.symm) ?_ ?_
  all_goals
    rw [hcell]
    split <;> rfl

/-- A node that was just made can be attached to. -/
theorem attachable_addNode {cell : NodeCell} {heading : Heading} {parent : Value}
    (hnew : cell.IsNew world.forest.size heading parent) :
    (world.addNode cell).Attachable world.forest.size := by
  have hcell := cell_addNode_self world cell
  refine ⟨by simp [World.addNode], ⟨.children world.forest.size, ?_⟩, ?_⟩
  · rw [hcell]
    exact hnew.children
  · rw [hcell, hnew.extras]
    rfl

namespace InUse

theorem congr (hinuse : world.InUse id table reading) (hhosts : after.hosts = world.hosts)
    (hstacks : after.openStacks.size = world.openStacks.size)
    (hnonempty : after.items (.stack reading.stack) ≠ #[])
    (hitems : ∀ item ∈ after.items (.stack reading.stack),
      item ∈ world.items (.stack reading.stack) ∨
        ∃ node, item = .node node ∧ after.Attachable node)
    (hkeeps : ∀ node, world.Attachable node → after.Attachable node) :
    after.InUse id table reading where
  reads := hinuse.reads.congr hhosts hstacks
  ruled := hinuse.ruled.congr (by simp only [host, hhosts]) (by simp only [host, hhosts])
  nonempty := hnonempty
  nodes item hitem := by
    rcases hitems item hitem with hold | hnew
    · obtain ⟨node, rfl, hnode⟩ := hinuse.nodes item hold
      exact ⟨node, rfl, hkeeps node hnode⟩
    · exact hnew

theorem same (hinuse : world.InUse id table reading) (hhosts : after.hosts = world.hosts)
    (hforest : after.forest = world.forest) (hstacks : after.openStacks = world.openStacks) :
    after.InUse id table reading := by
  have hitems : after.items (.stack reading.stack) = world.items (.stack reading.stack) :=
    congrArg (·.getD reading.stack #[]) hstacks
  refine hinuse.congr hhosts (by rw [hstacks]) (hitems ▸ hinuse.nonempty)
    (fun item hitem => .inl (hitems ▸ hitem)) fun node hnode => ?_
  have hcell : after.cell node = world.cell node := congrArg (Forest.cell · node) hforest
  exact hnode.of_cell (Nat.le_of_eq (by rw [hforest])) (by rw [hcell]) (by rw [hcell])

theorem quiet (hinuse : world.InUse id table reading) (hquiet : world.Quiet after) :
    after.InUse id table reading :=
  hinuse.same hquiet.hosts hquiet.forest hquiet.openStacks

theorem setCursor (hinuse : world.InUse id table reading) (cursor : Cursor) :
    (world.setCursor id cursor).InUse id table { reading with cursor } where
  reads := hinuse.reads.setCursor cursor
  ruled := by
    have hhost := host_setCursor cursor hinuse.reads.plain.present
    exact hinuse.ruled.congr (by rw [hhost]) (by rw [hhost])
  nonempty := hinuse.nonempty
  nodes item hitem := by
    obtain ⟨node, rfl, hnode⟩ := hinuse.nodes item hitem
    exact ⟨node, rfl, hnode.of_cell (Nat.le_refl _) rfl rfl⟩

theorem addNode (hinuse : world.InUse id table reading) (cell : NodeCell) :
    (world.addNode cell).InUse id table reading :=
  hinuse.congr rfl rfl hinuse.nonempty (fun _ => .inl) fun _ hnode => hnode.addNode cell

theorem setParent (hinuse : world.InUse id table reading) (child parent : NodeId) :
    (world.setParent child parent).InUse id table reading :=
  hinuse.congr rfl rfl hinuse.nonempty (fun _ => .inl) fun _ hnode => hnode.setParent child parent

/-- A node that others can be attached to may be put into any list. -/
theorem push (hinuse : world.InUse id table reading) (ref : ListRef)
    (hnode : world.Attachable node) :
    (world.changeItems ref fun values => values.push (.node node)).InUse id table reading := by
  classical
  refine hinuse.congr (by cases ref <;> rfl)
    (world.sameSizes_changeItems ref _).openStacks ?_ ?_ fun _ hother => hother.changeItems ref _
  · rw [items_changeItems]
    split
    next => exact Array.push_ne_empty
    next => exact hinuse.nonempty
  · intro item hitem
    rcases world.mem_push_items hitem with hold | ⟨_, rfl⟩
    · exact .inl hold
    · exact .inr ⟨node, rfl, hnode.changeItems ref _⟩

/-- The innermost of at least two open nodes may be closed. -/
theorem close (hinuse : world.InUse id table reading)
    (hmany : 2 ≤ (world.items (.stack reading.stack)).size) :
    (world.closeNode reading).InUse id table reading := by
  classical
  refine hinuse.congr rfl (world.sameSizes_changeItems _ _).openStacks ?_
    (fun item hitem => .inl (world.mem_pop_items hitem)) fun _ hnode => hnode.changeItems _ _
  rw [World.closeNode, items_changeItems]
  split
  next =>
    rw [← Array.size_pos_iff, Array.size_pop]
    omega
  next => exact hinuse.nonempty

/-- There is an innermost open node. -/
theorem exists_top (hinuse : world.InUse id table reading) :
    ∃ (below : Array Value) (top : NodeId),
      world.items (.stack reading.stack) = below.push (.node top) ∧ world.Attachable top := by
  obtain ⟨below, last, hitems⟩ : ∃ (below : Array Value) (last : Value),
      world.items (.stack reading.stack) = below.push last :=
    ⟨_, _, Array.eq_push_pop_back!_of_size_ne_zero
      (Nat.ne_of_gt (Array.size_pos_iff.mpr hinuse.nonempty))⟩
  obtain ⟨top, rfl, htop⟩ := hinuse.nodes last (hitems ▸ Array.mem_push_self)
  exact ⟨below, top, hitems, htop⟩

end InUse

/-- Registering a rule does not take a parser out of use. -/
theorem InUse.setRule (hinuse : world.InUse id table reading) {label : String} {rule : Rule}
    {value : Value} (hdescribes : rule.Describes label value) :
    (world.setRule id label value).InUse id (table.insert label rule) reading := by
  have hplain := hinuse.reads.plain
  have hhost := host_setRule label value hplain.present
  refine
    { reads :=
        { plain := hplain.congr (by simp [World.setRule, changeRecord, changeHost]) (by rw [hhost])
            (by rw [hhost])
          input := by rw [hhost]; exact hinuse.reads.input
          cursor := by rw [hhost]; exact hinuse.reads.cursor
          root := by rw [hhost]; exact hinuse.reads.root
          stack := by rw [hhost]; exact hinuse.reads.stack
          opened := hinuse.reads.opened }
      ruled := hinuse.ruled.setRule hplain.present hdescribes
      nonempty := hinuse.nonempty
      nodes := fun item hitem => ?_ }
  obtain ⟨node, rfl, hnode⟩ := hinuse.nodes item hitem
  exact ⟨node, rfl, hnode.of_cell (Nat.le_refl _) rfl rfl⟩

/-- A parse leaves its parser in use, wherever it is. -/
theorem Parses.inUse {stage : Stage} (hparses : world.Parses id table stage)
    (hlevels : stage.levels ≠ []) : world.InUse id table stage.reading := by
  have hnodes : ∀ levels further, world.Grows stage.reading.root levels further →
      nextNode stage.reading.root levels ≤ world.forest.size →
      ∀ item ∈ openNodes stage.reading.root levels, ∃ node, item = .node node ∧
        world.Attachable node := by
    intro levels
    induction levels with
    | nil => exact fun _ _ _ item hitem => absurd hitem (Array.not_mem_empty item)
    | cons level outer ih =>
        rintro further ⟨hshows, _, _, hgrows⟩ hsize item hitem
        rw [nextNode_cons] at hsize
        rcases Array.mem_push.mp hitem with hold | rfl
        · exact ih _ hgrows (by omega) item hold
        · have hpresent : nextNode stage.reading.root outer < world.forest.size := by omega
          refine ⟨_, rfl, hpresent, ⟨_, hshows.children⟩, ?_⟩
          rw [hshows.extras]
          rfl
  exact
    { reads := hparses.reads
      ruled := hparses.ruled
      nonempty := by
        rw [hparses.opened, ← Array.size_pos_iff, size_openNodes]
        exact List.length_pos_iff.mpr hlevels
      nodes := by
        rw [hparses.opened]
        exact hnodes _ _ hparses.grows (Nat.le_of_eq hparses.size.symm) }

/-- A new parser is in use, with no rules. -/
theorem inUse_addParser (world : World) :
    world.addParser.InUse world.hosts.size .empty
      ⟨"", .start, world.forest.size, world.openStacks.size⟩ := by
  let made := world.addHost { Host.bare .parser with
    options := some (.record (.options world.hosts.size))
    rules := some (.record (.rules world.hosts.size))
    patterns := some (.record (.patterns world.hosts.size)) }
  have hhost : made.host world.hosts.size = _ :=
    (host_addHost world _ world.hosts.size).trans (if_pos rfl)
  have hplain : made.Plain world.hosts.size :=
    ⟨by simp [made, addHost], by rw [hhost]; rfl, fun method => by rw [hhost]; rfl⟩
  have hruled : made.Ruled world.hosts.size .empty :=
    ⟨by rw [hhost], by rw [hhost]; exact .nil, .nil⟩
  exact (restart_parses hplain hruled "").inUse (List.cons_ne_nil _ _)

end World

/-! ## Calls keep a parser in use -/

/-- A quiet part of a run keeps a parser in use. -/
theorem World.InUse.after_quiet {α β : Type} {first : Run α} {next : α → Run β}
    {post : Except Fault β → World → Prop} (hinuse : world.InUse id table reading)
    (hquiet : first.Quiet)
    (hnext : ∀ value after, after.InUse id table reading → (next value).Ends after post)
    (hfault : ∀ fault after, after.InUse id table reading → post (.error fault) after) :
    (first >>= next).Ends world post := by
  have hfirst : first.Ends world fun _ after => after.InUse id table reading := by
    intro serial
    have hbegin : (world.withSerial serial).InUse id table reading := hinuse.same rfl rfl rfl
    exact ⟨_, _, _, rfl, hbegin.quiet (hquiet (world.withSerial serial))⟩
  exact Ends.bind hfirst hnext hfault

theorem attachLoose_keeps (hinuse : world.InUse id table reading)
    (hchild : world.Attachable child) :
    (Parser.attachLoose (Kernel.ofDepth rounds (depth + 1)) id (.node child)).Gives world
      fun _ after => after.InUse id table reading ∧ after.Attachable child := by
  by_cases hparent : (world.cell child).parent = .null
  · obtain ⟨below, top, hitems, htop⟩ := hinuse.exists_top
    obtain ⟨ref, hchildren⟩ := htop.children
    refine Gives.mono (attachLoose_gives_loose hinuse.reads hitems hchildren htop.methods child
      hparent) ?_
    rintro _ _ rfl
    have htold := hchild.setParent child top
    exact ⟨(hinuse.setParent child top).push ref htold, htold.changeItems ref _⟩
  · refine Gives.mono (attachLoose_gives_attached _ child hparent) ?_
    rintro _ _ rfl
    exact ⟨hinuse, hchild⟩

theorem push_keeps (hinuse : world.InUse id table reading) (hnode : world.Attachable node) :
    ((Kernel.ofDepth rounds (depth + 2)).sendHost id "push" [.node node]).Gives world
      fun value after => value = .node node ∧ after.InUse id table reading ∧
        after.Attachable node := by
  refine sendHost_ends hinuse.reads.plain .push [_] rfl ?_
  refine Gives.bind (attachLoose_keeps hinuse hnode) ?_
  rintro _ attached ⟨hattached, hthere⟩
  refine Ends.look _ (hostPart_look "stack" hattached.reads.stack) ?_
  refine Ends.change () (attached.openNode reading node) (fun _ => rfl) ?_
  exact Gives.pure ⟨rfl, hattached.push _ hthere, hthere.changeItems _ _⟩

theorem pop_keeps (hinuse : world.InUse id table reading) (label : Value) :
    ((Kernel.ofDepth rounds (depth + 2)).sendHost id "pop" [label]).Ends world
      fun _ after => after.InUse id table reading := by
  have hcomplains : ∀ after : World, after.InUse id table reading →
      (Parser.noOpenNode (Kernel.ofDepth rounds (depth + 1)) id label).Ends after
        fun _ after => after.InUse id table reading := by
    intro after hafter
    refine Ends.mono (noOpenNode_shows hafter.reads.isAt label) ?_
    rintro _ _ ⟨_, _, _, rfl⟩
    exact hafter
  refine sendHost_ends hinuse.reads.plain .pop [label] rfl ?_
  refine Ends.look _ (hostPart_look "stack" hinuse.reads.stack) ?_
  refine Ends.look (world.items (.stack reading.stack)).size (fun _ => rfl) ?_
  split
  next => exact hcomplains world hinuse
  next hmany =>
    obtain ⟨below, top, hitems, htop⟩ := hinuse.exists_top
    refine Ends.look _ (getTop_look hitems) ?_
    refine Ends.look (world.cell top).label (fun _ => rfl) ?_
    have hequal : (equal (world.cell top).label label).Ends world fun _ after => after = world := by
      intro serial
      rw [equal, outcome_bind_ok (outcome_get _)]
      split
      next => exact ⟨_, world, serial, rfl, rfl⟩
      next => exact ⟨_, world, serial, rfl, rfl⟩
    refine Ends.bind hequal ?_ ?_
    · rintro carries _ rfl
      split
      next =>
        refine Ends.look (below.push (.node top)) (fun _ => ?_) ?_
        · exact congrArg (fun values => (Except.ok values, _)) hitems
        · rw [Array.back?_push]
          refine Ends.change () (World.closeNode _ reading) (fun _ => rfl) ?_
          exact Ends.pure (hinuse.close (Nat.not_lt.mp hmany))
      next => exact hcomplains _ hinuse
    · rintro fault _ rfl
      exact hinuse

theorem match_keeps (hinuse : world.InUse id table reading) (source : Value) :
    ((Kernel.ofDepth rounds (depth + 2)).sendHost id "match" [source]).Ends world
      fun _ after => ∃ reading, after.InUse id table reading := by
  refine sendHost_ends hinuse.reads.plain .match [source] rfl ?_
  refine hinuse.after_quiet (quiet_compilePattern _ _) (fun pattern compiled hcompiled => ?_)
    fun _ _ hafter => ⟨reading, hafter⟩
  refine hcompiled.after_quiet (Parser.quiet_charsLeft _ _) (fun left looked hlooked => ?_)
    fun _ _ hafter => ⟨reading, hafter⟩
  split
  next => exact Ends.pure ⟨reading, hlooked⟩
  next found _ =>
    refine Ends.fresh fun serial => ?_
    have hadvance : ((Kernel.ofDepth rounds (depth + 1)).sendHost id "_advance_text"
        [pattern.valueOf found.text]).Ends looked fun _ after =>
          ∃ reading, after.InUse id table reading := by
      rw [Pattern.valueOf]
      split
      next =>
        have hrefused : (Parser.advance id (.bytes (String.ofList found.text))).Fails looked
            fun _ after => after = looked := Fails.fail rfl
        refine sendHost_ends hlooked.reads.plain .advance [_] rfl
          (Ends.mono (Fails.bind hrefused) ?_)
        rintro _ _ ⟨_, _, rfl⟩
        exact ⟨reading, hlooked⟩
      next =>
        refine Ends.mono (advance_gives hlooked.reads found.text) ?_
        rintro _ _ ⟨_, _, rfl⟩
        exact ⟨_, hlooked.setCursor _⟩
    refine Ends.bind hadvance ?_ fun _ _ hafter => hafter
    exact fun _ _ hafter => Ends.pure hafter

section Rules

variable {label kind : String} {matcher : Term} {pattern : Pattern} {found : Pattern.Match}

/-- Opening a node for a match keeps a parser in use. -/
theorem openScript_keeps (hinuse : world.InUse id table reading) (hmatcher : matcher.Names pattern)
    (htext : pattern.binary = false)
    (hmatch : pattern.match? (reading.input.toList.drop reading.cursor.offset) = some found) :
    (callback (Kernel.ofDepth rounds (depth + 3)) (openScript matcher kind) [.host id]).Gives world
      fun value after => ∃ node reading, value = .node node ∧ after.InUse id table reading ∧
        after.Attachable node := by
  refine openScript_pushes hinuse.reads hmatcher htext hmatch fun frame cell hnew => ?_
  have hframe : (world.withFrame frame).InUse id table reading := hinuse.same rfl rfl rfl
  refine Gives.mono (push_keeps ((hframe.setCursor _).addNode cell)
    (World.attachable_addNode hnew)) ?_
  rintro _ after ⟨rfl, hafter, hnode⟩
  exact ⟨_, _, rfl, hafter.same rfl rfl rfl, hnode.of_cell (Nat.le_refl _) rfl rfl⟩

/-- Closing at a match keeps a parser in use, also if it is refused. -/
theorem closeScript_keeps (hinuse : world.InUse id table reading)
    (hmatcher : matcher.Names pattern) (htext : pattern.binary = false)
    (hmatch : pattern.match? (reading.input.toList.drop reading.cursor.offset) = some found) :
    (callback (Kernel.ofDepth rounds (depth + 2)) (closeScript matcher kind) [.host id]).Ends world
      fun result after => (∀ value, result = .ok value → value = .null) ∧
        ∃ reading, after.InUse id table reading := by
  refine closeScript_pops hinuse.reads hmatcher htext hmatch fun frame => ?_
  have hframe : (world.withFrame frame).InUse id table reading := hinuse.same rfl rfl rfl
  refine Ends.mono (pop_keeps (hframe.setCursor _) (.text kind)) ?_
  intro result after hafter
  refine ⟨fun value hvalue => ?_, _, hafter.same rfl rfl rfl⟩
  cases result with
  | ok => exact (Except.ok.inj hvalue).symm
  | error => cases hvalue

/-- A rule that does a deed keeps a parser in use when it is applied. -/
theorem applyDeed_keeps {rule : Rule} {deed : Deed} (hinuse : world.InUse id table reading)
    (hrule : table.get? label = some rule) (hdoes : rule.Does deed) :
    ((Kernel.ofDepth rounds (depth + 5)).sendHost id "apply" [.text label]).Ends world
      fun _ after => ∃ reading, after.InUse id table reading := by
  have hreads := hinuse.reads
  have hidle : ((Kernel.ofDepth rounds (depth + 5)).sendHost id "apply" [.text label]).Gives world
      (fun value after => value = .null ∧ after = world) →
      ((Kernel.ofDepth rounds (depth + 5)).sendHost id "apply" [.text label]).Ends world
        fun _ after => ∃ reading, after.InUse id table reading := by
    intro hidle
    refine Ends.mono hidle ?_
    rintro _ _ ⟨_, _, _, rfl⟩
    exact ⟨reading, hinuse⟩
  have hattach : ∀ {after : World} {reading : Reading} (node : NodeId),
      after.InUse id table reading → after.Attachable node →
      (do
        Parser.attachLoose (Kernel.ofDepth rounds (depth + 4)) id (.node node)
        return .node node : Run Value).Ends after
          fun _ after => ∃ reading, after.InUse id table reading := by
    intro after reading node hafter hnode
    refine Gives.bind (attachLoose_keeps hafter hnode) ?_
    exact fun _ _ hattached => Ends.pure ⟨reading, hattached.1⟩
  cases hdoes with
  | captured pattern =>
      by_cases hfinds : ∃ found,
          pattern.match? (reading.input.toList.drop reading.cursor.offset) = some found ∧
            found.text ≠ []
      · obtain ⟨found, hmatch, hfound⟩ := hfinds
        refine apply_captured_start hreads hinuse.ruled hrule hmatch hfound fun cell hnew => ?_
        exact hattach _ ((hinuse.setCursor _).addNode cell) (World.attachable_addNode hnew)
      · refine hidle (apply_captured_idle hreads hinuse.ruled hrule fun found hmatch => ?_)
        exact not_not.mp fun hfound => hfinds ⟨found, hmatch, hfound⟩
  | @opening matcher pattern kind hmatcher htext =>
      cases hmatch : pattern.match? (reading.input.toList.drop reading.cursor.offset) with
      | none =>
          exact hidle (apply_script_idle hreads.plain hinuse.ruled hrule
            (openScript_skips hreads hmatcher htext hmatch))
      | some found =>
          refine apply_script_start hreads.plain hinuse.ruled hrule
            (Gives.bind (openScript_keeps hinuse hmatcher htext hmatch) ?_)
          rintro _ after ⟨node, reading, rfl, hafter, hnode⟩
          exact hattach node hafter hnode
  | @closing matcher pattern kind hmatcher htext =>
      cases hmatch : pattern.match? (reading.input.toList.drop reading.cursor.offset) with
      | none =>
          exact hidle (apply_script_idle hreads.plain hinuse.ruled hrule
            (closeScript_skips hreads hmatcher htext hmatch))
      | some found =>
          refine apply_script_start hreads.plain hinuse.ruled hrule
            (Ends.bind (closeScript_keeps hinuse hmatcher htext hmatch) ?_
              fun _ _ hafter => hafter.2)
          rintro value after ⟨hnull, hafter⟩
          obtain rfl := hnull value rfl
          exact Ends.pure hafter

end Rules

/-- Applying what is a rule or is none keeps a parser in use. -/
theorem apply_keeps {deeds : List (String × Deed)} (hdoes : table.Does deeds)
    (hinuse : world.InUse id table reading) (label : String) :
    ((Kernel.ofDepth rounds (depth + 5)).sendHost id "apply" [.text label]).Ends world
      fun _ after => ∃ reading, after.InUse id table reading := by
  cases hrule : table.get? label with
  | some rule =>
      obtain ⟨deed, hdeed⟩ := hdoes.exists_deed hrule
      exact applyDeed_keeps hinuse hrule hdeed
  | none =>
      refine sendHost_ends hinuse.reads.plain .apply [_] rfl
        (Ends.mono (Fails.bind (get_fails hinuse.reads.plain hinuse.ruled hrule)) ?_)
      rintro _ _ ⟨_, _, _, rfl⟩
      exact ⟨reading, hinuse⟩

/-- Whatever call makes a parser read, it is still in use afterwards. -/
theorem World.InUse.call {deeds : List (String × Deed)} (hdoes : table.Does deeds)
    (hinuse : world.InUse id table reading) {method : ParserMethod} {values : List Value}
    (hcall : world.ReadingCall method values) :
    ((Kernel.ofDepth rounds (depth + 7)).sendHost id method.name values).Ends world
      fun _ after => ∃ reading, after.InUse id table reading := by
  have hplain := hinuse.reads.plain
  cases hcall with
  | reset text =>
      refine Ends.mono (reset_gives hplain hinuse.ruled text) ?_
      rintro _ after ⟨_, _, hparses⟩
      exact ⟨_, hparses.inUse (List.cons_ne_nil _ _)⟩
  | «match» source => exact match_keeps hinuse source
  | push hnode =>
      refine Ends.mono (push_keeps hinuse hnode) ?_
      rintro _ after ⟨_, _, _, hafter, _⟩
      exact ⟨reading, hafter⟩
  | apply label => exact apply_keeps hdoes hinuse label
  | pop label =>
      exact Ends.mono (pop_keeps hinuse label) fun _ _ hafter => ⟨reading, hafter⟩
  | parse text =>
      refine Ends.mono (parse_turn hdoes hplain hinuse.ruled text) fun _ after htaken => ?_
      obtain ⟨standing, hpursues⟩ := htaken.exists_reached
      exact ⟨_, hpursues.parses.inUse (List.cons_ne_nil _ _)⟩

/-- A parser that is in use stays so. -/
theorem World.Reaches.inUse {deeds : List (String × Deed)} (hdoes : table.Does deeds)
    (hinuse : world.InUse id table reading) (hreaches : world.Reaches id after) :
    ∃ reading, after.InUse id table reading := by
  induction hreaches with
  | start => exact ⟨reading, hinuse⟩
  | @call before after _ _ _ _ _ _ hcall houtcome ih =>
      obtain ⟨reading, hbefore⟩ := ih
      obtain ⟨result, reached, later, hends, _, hafter⟩ := hbefore.call hdoes hcall before.serial
      cases hends.symm.trans houtcome
      exact ⟨_, hafter.same rfl rfl rfl⟩

end InUse

/-! ## Two parses -/

/-- The open nodes of a parser carry labels, the root the first of them. -/
def World.OpenUnder (world : World) (id : HostId) (labels : List String) : Prop :=
  ∃ (number : Nat) (nodes : List NodeId),
    (world.host id).stack = some (.list (.stack number)) ∧
      world.items (.stack number) = (nodes.map .node).toArray ∧
      nodes.map (fun node => (world.cell node).label) = labels.map .text

/-- Two parses end alike: both with the same tree or both with the same fault, with their parsers at
the same place and nodes of the same kinds open. -/
structure World.EndAlike (world other : World) (id otherId : HostId)
    (result otherResult : Except Fault Value) : Prop where
  outcome : (∃ fault, result = .error fault ∧ otherResult = .error fault) ∨
    ∃ root otherRoot tree, result = .ok (.node root) ∧ otherResult = .ok (.node otherRoot) ∧
      world.Holds .null root tree ∧ other.Holds .null otherRoot tree
  cursor : ∃ cursor, (world.host id).cursor = some cursor ∧
    (other.host otherId).cursor = some cursor
  stack : ∃ labels, world.OpenUnder id labels ∧ other.OpenUnder otherId labels

section Parse

variable {base other world after : World} {id otherId : HostId} {table : Table String Rule}
  {input : String} {standing : Standing} {deeds : List (String × Deed)} {reading : Reading}

/-- The kinds of the nodes that are open, the root's first. -/
def Standing.labels (standing : Standing) : List String :=
  ((standing.innermost :: standing.around).map fun level => level.heading.label).reverse

theorem World.Grows.exists_nodes {root : Nat} {levels : List Level} {further : List Value}
    (hgrows : world.Grows root levels further) :
    ∃ nodes : List NodeId, openNodes root levels = (nodes.map .node).toArray ∧
      nodes.map (fun node => (world.cell node).label) =
        ((levels.map fun level => level.heading.label).reverse).map .text := by
  induction levels generalizing further with
  | nil => exact ⟨[], rfl, rfl⟩
  | cons level outer ih =>
      obtain ⟨hshows, _, _, hgrows⟩ := hgrows
      obtain ⟨nodes, hopen, hlabels⟩ := ih hgrows
      refine ⟨nodes ++ [nextNode root outer], ?_, ?_⟩
      · simp [openNodes, hopen]
      · simp [hlabels, hshows.label]

theorem World.Pursues.openUnder (hpursues : base.Pursues id table input standing world) :
    world.OpenUnder id standing.labels := by
  have hparses := hpursues.parses
  obtain ⟨nodes, hopen, hlabels⟩ := hparses.grows.exists_nodes
  exact ⟨_, nodes, hparses.reads.stack, hparses.opened.trans hopen, hlabels⟩

/-- A course that ends has closed everything but the root. -/
theorem around_course {fuel : Nat} {answer : Bool}
    (hcourse : course input deeds fuel = .ended standing answer) : standing.around = [] := by
  rw [course] at hcourse
  split at hcourse
  next =>
    split at hcourse
    next hroot =>
      cases hcourse
      exact List.isEmpty_iff.mp hroot
    next => cases hcourse
  next turn hturn => exact absurd hcourse (hturn standing answer)

/-- Where a turn leaves a parse does not depend on what serial numbers are counted from. -/
theorem Turn.Taken.withSerial {turn : Turn} {answers : Bool → Value → Prop}
    {result : Except Fault Value}
    (htaken : turn.Taken (base.Pursues id table input) answers result after) (serial : Nat) :
    turn.Taken (base.Pursues id table input) answers result (after.withSerial serial) := by
  have hlater : ∀ {standing : Standing}, base.Pursues id table input standing after →
      base.Pursues id table input standing (after.withSerial serial) := fun hpursues =>
    { parses := hpursues.parses.congr rfl rfl rfl
      same := ⟨hpursues.same.nodes, hpursues.same.stackLists, hpursues.same.lists,
        hpursues.same.records, hpursues.same.hosts, hpursues.same.host⟩ }
  cases turn with
  | ended => exact ⟨htaken.1, hlater htaken.2⟩
  | failed => exact ⟨htaken.1, hlater htaken.2⟩

/-- Parses that took the same course end alike. -/
theorem taken_alike {otherBase : World} {turn : Turn} {result otherResult : Except Fault Value}
    {otherAfter : World}
    (hroot : ∀ standing answer, turn = .ended standing answer → standing.around = [])
    (htaken : turn.Taken (base.Pursues id table input)
      (fun _ value => value = .node base.forest.size) result after)
    (hother : turn.Taken (otherBase.Pursues otherId table input)
      (fun _ value => value = .node otherBase.forest.size) otherResult otherAfter) :
    after.EndAlike otherAfter id otherId result otherResult := by
  cases turn with
  | failed standing fault =>
      obtain ⟨rfl, hpursues⟩ := htaken
      obtain ⟨rfl, hpursues'⟩ := hother
      exact
        { outcome := .inl ⟨fault, rfl, rfl⟩
          cursor := ⟨_, hpursues.parses.reads.cursor, hpursues'.parses.reads.cursor⟩
          stack := ⟨_, hpursues.openUnder, hpursues'.openUnder⟩ }
  | ended standing answer =>
      obtain ⟨⟨_, rfl, rfl⟩, hpursues⟩ := htaken
      obtain ⟨⟨_, rfl, rfl⟩, hpursues'⟩ := hother
      have hholds : ∀ {base after : World} {id : HostId},
          base.Pursues id table input standing after →
            after.Holds .null base.forest.size standing.innermost.tree := by
        intro base after id hpursues
        have hgrows := hpursues.parses.grows
        rw [Standing.stage, hroot standing answer rfl] at hgrows
        exact hgrows.holds
      exact
        { outcome := .inr ⟨_, _, _, rfl, rfl, hholds hpursues, hholds hpursues'⟩
          cursor := ⟨_, hpursues.parses.reads.cursor, hpursues'.parses.reads.cursor⟩
          stack := ⟨_, hpursues.openUnder, hpursues'.openUnder⟩ }

theorem Table.exists_does (hnodup : table.keys.Nodup)
    (hdeeds : ∀ entry ∈ table.entries, ∃ deed, entry.2.Does deed) :
    ∃ deeds, table.Does deeds := by
  have : Nonempty Deed := ⟨.takes default⟩
  choose! deed hdeed using hdeeds
  refine ⟨table.entries.map fun entry => (entry.1, deed entry), ?_, ?_⟩
  · rw [List.map_map]
    rfl
  · intro named hnamed
    obtain ⟨entry, hentry, rfl⟩ := List.mem_map.mp hnamed
    exact ⟨entry.2, Table.get?_of_mem hnodup hentry, hdeed entry hentry⟩

/-- Whatever a parser was made to read before, and however that ended, it reads a text like any
other parser with the same rules, a new one among them, and changes nothing that was there. -/
theorem parse_forgets {start : World}
    (hdeeds : ∀ entry ∈ table.entries, ∃ deed, entry.2.Does deed)
    (hinuse : start.InUse id table reading) (hreaches : start.Reaches id world)
    (hplain : other.Plain otherId) (hruled : other.Ruled otherId table) (text : String)
    (rounds depth otherDepth : Nat) :
    ∃ result after otherResult otherAfter,
      ((Kernel.ofDepth rounds (depth + 7)).sendHost id "parse" [.text text]).outcome world =
          (result, after) ∧
        ((Kernel.ofDepth rounds (otherDepth + 7)).sendHost otherId "parse" [.text text]).outcome
            other = (otherResult, otherAfter) ∧
          after.EndAlike otherAfter id otherId result otherResult ∧
            world.SameBefore after id ∧
            (after.host id).root = some (.node world.forest.size) := by
  obtain ⟨deeds, hdoes⟩ := Table.exists_does hruled.nodup hdeeds
  obtain ⟨_, hworld⟩ := hreaches.inUse hdoes hinuse
  have hparse := @parse_turn _ _ _ _ rounds depth hdoes hworld.reads.plain hworld.ruled text
    world.serial
  have hother := @parse_turn _ _ _ _ rounds otherDepth hdoes hplain hruled text other.serial
  obtain ⟨result, after, later, houtcome, htaken⟩ := hparse
  obtain ⟨otherResult, otherAfter, otherLater, hotherOutcome, hotherTaken⟩ := hother
  have hafter := htaken.withSerial later
  obtain ⟨_, hpursues⟩ := hafter.exists_reached
  exact ⟨result, _, otherResult, _, houtcome, hotherOutcome,
    taken_alike (fun _ _ => around_course) hafter (hotherTaken.withSerial otherLater),
    hpursues.same, hpursues.parses.reads.root⟩

end Parse

/-- A new parser with rules for round brackets and for slashes. -/
def World.slashParser : World :=
  ((World.start.addParser.setRule 0 "open"
      (.callback 0 "open" (openScript (.datum (.text "^\\(")) "paren"))).setRule 0 "close"
        (.callback 0 "close" (closeScript (.datum (.text "^\\)")) "paren"))).setRule 0 "slash"
          (.patternRule 0 "capture_slash" (.text "slash") (.pattern (.ofChar "^/" '/')))

/-- The rules of that parser. -/
def slashRules : Table String Rule :=
  ((Table.empty.insert "open" (.script (openScript (.datum (.text "^\\(")) "paren"))).insert "close"
    (.script (closeScript (.datum (.text "^\\)")) "paren"))).insert "slash"
      (.captured (.ofChar "^/" '/'))

theorem inUse_slashParser : World.slashParser.InUse 0 slashRules ⟨"", .start, 0, 0⟩ := by
  refine World.InUse.setRule (World.InUse.setRule (World.InUse.setRule
    (World.inUse_addParser .start) ?_) ?_) ?_
  · exact ⟨0, "open", rfl⟩
  · exact ⟨0, "close", rfl⟩
  · exact ⟨0, "capture_slash", _, rfl, rfl, Value.compiles_pattern _⟩

theorem does_slashRules : ∀ entry ∈ slashRules.entries, ∃ deed, entry.2.Does deed := by
  have hentries : slashRules.entries =
      [("open", .script (openScript (.datum (.text "^\\(")) "paren")),
        ("close", .script (closeScript (.datum (.text "^\\)")) "paren")),
        ("slash", .captured (.ofChar "^/" '/'))] := by
    rfl
  have hopen : (Term.datum (.text "^\\(")).Names (.ofChar "^\\(" '(') :=
    Term.names_source (by decide +kernel)
  have hclose : (Term.datum (.text "^\\)")).Names (.ofChar "^\\)" ')') :=
    Term.names_source (by decide +kernel)
  rw [hentries]
  refine List.forall_mem_cons.mpr ⟨⟨_, .opening hopen rfl⟩, ?_⟩
  refine List.forall_mem_cons.mpr ⟨⟨_, .closing hclose rfl⟩, ?_⟩
  exact List.forall_mem_singleton.mpr ⟨_, .captured _⟩

/-- After a parse that failed and left a bracket open, a parser reads as it would have before. -/
theorem parse_forgets_unclosed :
    let parse := fun text => (Kernel.ofDepth 9 7).sendHost 0 "parse" [.text text]
    let failed := ((parse "(/").outcome .slashParser).2
    ((parse "(/").outcome .slashParser).1.isOk = false ∧ (failed.items (.stack 1)).size = 2 ∧
      ∃ result after otherResult otherAfter,
        (parse "(/)").outcome failed = (result, after) ∧
          (parse "(/)").outcome .slashParser = (otherResult, otherAfter) ∧
            after.EndAlike otherAfter 0 0 result otherResult ∧ failed.SameBefore after 0 ∧
              (after.host 0).root = some (.node failed.forest.size) := by
  intro parse failed
  have hreaches : World.slashParser.Reaches 0 failed :=
    .call .start (.parse "(/") (Prod.eta ((parse "(/").outcome .slashParser)).symm
  refine ⟨by decide +kernel, by decide +kernel, ?_⟩
  exact parse_forgets does_slashRules inUse_slashParser hreaches inUse_slashParser.reads.plain
    inUse_slashParser.ruled "(/)" 9 0 0

end Rulebook
