import Rulebook.Proofs.LawfulRun
import Rulebook.Proofs.Store

/-!
# What a change leaves alone

Each change of the world is about one thing: an input, an attribute, a list of open nodes. These
equations say what hosts and nodes are like afterwards.
-/

namespace Rulebook

open Run

namespace World

variable (world : World)

/-- A parser that begins to read is the only host that changes. -/
theorem host_restart_of (id : HostId) (input : Value) (other : HostId) :
    (world.restart id input).host other =
      if id = other ∧ other < world.hosts.size then
        { world.host other with
          input := some input, cursor := some .start, root := some (.node world.forest.size)
          stack := some (.list (.stack world.openStacks.size)) }
      else world.host other := by
  rw [restart, host_changeHost]
  rfl

theorem size_openStacks_restart (id : HostId) (input : Value) :
    (world.restart id input).openStacks.size = world.openStacks.size + 1 :=
  Array.size_push _

/-- A parser that begins to read has a new list of open nodes, with a new root in it. -/
theorem items_restart (id : HostId) (input : Value) (number : Nat) :
    (world.restart id input).items (.stack number) =
      if number = world.openStacks.size then #[.node world.forest.size]
      else world.items (.stack number) := by
  have hstacks : (world.restart id input).openStacks =
      world.openStacks.push #[.node world.forest.size] := rfl
  rw [items, hstacks, Array.getD_eq_getD_getElem?, Array.getElem?_push]
  split
  next => rfl
  next => rw [← Array.getD_eq_getD_getElem?]; rfl

end World

/-- Writing an attribute changes the node or the host that it is written to, and nothing else that
matters. -/
theorem setAttribute_change (value content : Value) (name : String) (world : World) :
    (∃ id, value = .node id ∧ ((setAttribute value name content).outcome world).2 =
        world.changeCell id fun cell => cell.setAttribute name content) ∨
      (∃ id, value = .host id ∧ ((setAttribute value name content).outcome world).2 =
        world.changeHost id fun host => host.setAttribute name content) ∨
      world.Quiet ((setAttribute value name content).outcome world).2 := by
  cases value with
  | node id =>
      rw [setAttribute]
      split
      next => exact Or.inr (Or.inr (World.Quiet.refl _))
      next => exact Or.inl ⟨id, rfl, rfl⟩
  | host id =>
      rw [setAttribute, outcome_bind_ok (outcome_host id world)]
      split
      next => exact Or.inr (Or.inr (World.Quiet.refl _))
      next => exact Or.inr (Or.inl ⟨id, rfl, rfl⟩)
  | kind | callback | patternRule | stamp | plugin | captureRule | forward =>
      exact Or.inr (Or.inr (quiet_setExtra _ _ _ world))
  | _ => exact Or.inr (Or.inr (World.Quiet.refl _))

/-- Writing an attribute of a host leaves the nodes as they are. -/
theorem forest_setAttribute_host (id : HostId) (content : Value) (name : String) (world : World) :
    ((setAttribute (.host id) name content).outcome world).2.forest = world.forest := by
  rcases setAttribute_change (.host id) content name world with
    ⟨_, hnode, _⟩ | ⟨_, _, hafter⟩ | hquiet
  · cases hnode
  · rw [hafter]
    rfl
  · exact hquiet.forest

/-- Writing an attribute changes no host but the one that it is written to. -/
theorem host_setAttribute (value content : Value) (name : String) (world : World) (id : HostId) :
    ((setAttribute value name content).outcome world).2.host id = world.host id ∨
      value = .host id ∧ ((setAttribute value name content).outcome world).2.host id =
        (world.host id).setAttribute name content := by
  rcases setAttribute_change value content name world with
    ⟨node, _, hafter⟩ | ⟨other, hvalue, hafter⟩ | hquiet
  · rw [hafter]
    exact Or.inl rfl
  · rw [hafter, World.host_changeHost]
    split
    next hother => exact Or.inr ⟨hother.1 ▸ hvalue, rfl⟩
    next => exact Or.inl rfl
  · exact Or.inl (hquiet.host_eq id)

/-- Writing an attribute gives no node another attribute beyond those that nodes have. -/
theorem extras_setAttribute (value content : Value) {name other : String} (hname : name ≠ other)
    (world : World) (node : NodeId) :
    (((setAttribute value name content).outcome world).2.cell node).extras.get? other =
      (world.cell node).extras.get? other := by
  have hcell : ∀ cell : NodeCell,
      (cell.setAttribute name content).extras.get? other = cell.extras.get? other := by
    intro cell
    unfold NodeCell.setAttribute
    split
    case h_7 => exact (Table.get?_insert _ _ _ _).trans (if_neg hname.symm)
    all_goals rfl
  rcases setAttribute_change value content name world with
    ⟨id, _, hafter⟩ | ⟨id, _, hafter⟩ | hquiet
  · rw [hafter, World.changeCell, World.cell, Forest.cell_modify]
    split
    next => exact hcell _
    next => rfl
  · rw [hafter]
    rfl
  · rw [hquiet.cell_eq]

/-- Writing an attribute changes no list of open nodes. -/
theorem openStacks_setAttribute (value content : Value) (name : String) (world : World) :
    ((setAttribute value name content).outcome world).2.openStacks = world.openStacks := by
  rcases setAttribute_change value content name world with
    ⟨_, _, hafter⟩ | ⟨_, _, hafter⟩ | hquiet
  · rw [hafter]
    rfl
  · rw [hafter]
    rfl
  · exact hquiet.openStacks

namespace Host

variable (host : Host) (name : String) (content : Value)

@[simp] theorem cursor_setAttribute : (host.setAttribute name content).cursor = host.cursor := by
  unfold setAttribute
  split <;> rfl

theorem input_setAttribute :
    (host.setAttribute name content).input =
      if name = "input" then some content else host.input := by
  unfold setAttribute
  split <;> simp_all

theorem stack_setAttribute :
    (host.setAttribute name content).stack =
      if name = "stack" then some content else host.stack := by
  unfold setAttribute
  split <;> simp_all

theorem root_setAttribute :
    (host.setAttribute name content).root =
      if name = "ast" then some content else host.root := by
  unfold setAttribute
  split <;> simp_all

theorem rules_setAttribute :
    (host.setAttribute name content).rules =
      if name = "rules" then some content else host.rules := by
  unfold setAttribute
  split <;> simp_all

@[simp] theorem ownRules_setAttribute :
    (host.setAttribute name content).ownRules = host.ownRules := by
  unfold setAttribute
  split <;> rfl

theorem members_setAttribute {other : String} (hname : name ≠ other) :
    (host.setAttribute name content).members.get? other = host.members.get? other := by
  unfold setAttribute
  split
  case h_8 => exact (Table.get?_insert _ _ _ _).trans (if_neg hname.symm)
  all_goals rfl

end Host

/-! ## What a move does to a host -/

/-- What a lawful change can make of a record. -/
inductive Law.RecordChange (law : Law) (record : Record) : Record → Prop
  | same : RecordChange law record record
  | write {key : Key} {name : Value} (content : Value) (hkey : name.key? = some key) :
      RecordChange law record (record.write key name content)
  | erase (key : Key) {object : String} {label : Datum}
      (haction : law.action (.drop object label) = true) :
      RecordChange law record (record.erase key)

/-- What a lawful change can make of a host. -/
inductive Law.HostChange (law : Law) (world : World) (id : HostId) : Host → Prop
  | same : HostChange law world id (world.host id)
  /-- Something changes in the records it was made with. -/
  | records (ownOptions ownPatterns : Record) {ownRules : Record}
      (hrules : law.RecordChange (world.host id).ownRules ownRules) :
      HostChange law world id { world.host id with ownOptions, ownRules, ownPatterns }
  /-- It is made. -/
  | made (hostClass : HostClass) (options rules patterns : Option Value) (ownOptions : Record)
      (hrules : ∀ value ∈ rules, value = .record (.rules id))
      (hpatterns : ∀ value ∈ patterns, value = .record (.patterns id))
      (hnew : id = world.hosts.size) :
      HostChange law world id (blankHost hostClass options rules patterns ownOptions)
  | setNested (nested : HostId) :
      HostChange law world id { world.host id with nested := some (.host nested) }
  | advance {serial : Nat} {args : Args} {consumed : String} {cursor : Cursor}
      (hcall : law.call (.method serial (.host id) "_advance_text") args world = true)
      (hargs : args.bind? ParserMethod.advance.params = some [.text consumed])
      (hcursor : (world.host id).cursor = some cursor) :
      HostChange law world id
        { world.host id with cursor := some (cursor.advance consumed.toList) }
  /-- It is treated as a node: it is told a parent, or a position. -/
  | mark {name : String} (content : Value) (hname : name = "parent" ∨ name = "position") :
      HostChange law world id ((world.host id).setAttribute name content)
  | define {serial bound : Nat} {args : Args} {name : String} {callable : Value} {before : World}
      (hcall : law.call (.method serial (.host id) "define") args before = true)
      (hargs : args.bind? [.needed "name", .needed "fn"] = some [.text name, callable]) :
      HostChange law world id ((world.host id).setAttribute name (.bound bound id callable))
  | write (content : Value) {object name : String} {term : Term}
      (haction : law.action (.write object name term) = true) :
      HostChange law world id ((world.host id).setAttribute name content)

/-- What a lawful move can make of a host. -/
inductive Law.HostMove (law : Law) (world : World) (id : HostId) : Host → Prop
  | change {host : Host} (hchange : law.HostChange world id host) : HostMove law world id host
  /-- It begins to read: it was just made, or it was told to. -/
  | restart (input : Value)
      (hcause : (world.host id).root = none ∨
        ∃ serial args, law.call (.method serial (.host id) "reset") args world = true) :
      HostMove law world id
        { world.host id with
          input := some input, cursor := some .start, root := some (.node world.forest.size)
          stack := some (.list (.stack world.openStacks.size)) }

section HostMoves

variable {law : Law} {inv : World → Prop} {world after : World}

theorem Law.HostChange.marked {id : HostId} {value content : Value} {name : String} {host : Host}
    (hname : name = "parent" ∨ name = "position")
    (hhost : host = world.host id ∨
      value = .host id ∧ host = (world.host id).setAttribute name content) :
    law.HostChange world id host := by
  rcases hhost with rfl | ⟨_, rfl⟩
  · exact .same
  · exact .mark content hname

theorem Law.Change.host (hchange : law.Change world after) (id : HostId) :
    law.HostChange world id (after.host id) := by
  cases hchange with
  | quiet hquiet =>
      rw [hquiet.host_eq]
      exact .same
  | newNode | newNodeWithin => exact .same
  | newHost hostClass options rules patterns ownOptions hrules hpatterns =>
      rw [World.host_addHost]
      split
      next heq =>
        subst heq
        exact .made hostClass options rules patterns ownOptions hrules hpatterns rfl
      next => exact .same
  | setNested other nested =>
      rw [World.host_changeHost]
      split
      next => exact .setNested nested
      next => exact .same
  | advance hcall hargs hcursor =>
      rw [World.setCursor, World.host_changeHost]
      split
      next hother =>
        obtain ⟨rfl, _⟩ := hother
        exact .advance hcall hargs hcursor
      next => exact .same
  | writeRecord ref content hkey =>
      obtain ⟨_, _, _, rfl | rfl, hhost⟩ := world.host_changeRecord ref _ id
      · rw [hhost]
        exact .records _ _ .same
      · rw [hhost]
        exact .records _ _ (.write content hkey)
  | eraseEntry ref key haction =>
      obtain ⟨_, _, _, rfl | rfl, hhost⟩ := world.host_changeRecord ref _ id
      · rw [hhost]
        exact .records _ _ .same
      · rw [hhost]
        exact .records _ _ (.erase key haction)
  | stamp value position => exact .marked (Or.inr rfl) (host_setAttribute _ _ _ _ _)
  | @define _ bound other _ name callable _ hcall hargs =>
      rcases host_setAttribute (.host other) (.bound bound other callable) name world id with
        hhost | ⟨hother, hhost⟩
      · rw [hhost]
        exact .same
      · cases hother
        rw [hhost]
        exact .define hcall hargs
  | @write value content object name term haction =>
      rcases host_setAttribute value content name world id with hhost | ⟨_, hhost⟩
      · rw [hhost]
        exact .same
      · rw [hhost]
        exact .write content haction

theorem Law.Change.openStacks (hchange : law.Change world after) :
    after.openStacks = world.openStacks := by
  cases hchange with
  | quiet hquiet => exact hquiet.openStacks
  | newNode | newNodeWithin | newHost | setNested | advance => rfl
  | writeRecord ref | eraseEntry ref => cases ref <;> rfl
  | stamp | define | write => exact openStacks_setAttribute _ _ _ world

/-- A move changes hosts as changes do, unless a parser begins to read. -/
theorem Law.Move.hosts (hmove : law.Move inv world after) :
    (∀ id, law.HostChange world id (after.host id)) ∨
      ∃ id input, ((world.host id).root = none ∨
        ∃ serial args, law.call (.method serial (.host id) "reset") args world = true) ∧
          after = world.restart id input := by
  cases hmove with
  | change hchange => exact .inl hchange.host
  | restart id input hcause => exact .inr ⟨id, input, hcause, rfl⟩
  | setListItem | openNode | closeNode =>
      refine .inl fun id => ?_
      rw [World.host_changeItems]
      exact .same
  | @setParent _ node _ child _ _ _ hparent =>
      refine .inl fun id => ?_
      have hhost := host_setAttribute child (.node node) "parent" world id
      rw [hparent] at hhost
      exact .marked (Or.inl rfl) hhost
  | @attach _ node _ child ref middle _ _ hparent =>
      refine .inl fun id => ?_
      have hhost := host_setAttribute child (.node node) "parent" world id
      rw [hparent] at hhost
      rw [World.host_changeItems]
      exact .marked (Or.inl rfl) hhost

theorem Law.Move.host (hmove : law.Move inv world after) (id : HostId) :
    law.HostMove world id (after.host id) := by
  rcases hmove.hosts with hchange | ⟨other, input, hcause, rfl⟩
  · exact .change (hchange id)
  · rw [World.host_restart_of]
    split
    next hother =>
      obtain ⟨rfl, _⟩ := hother
      exact .restart input hcause
    next => exact .change .same

end HostMoves

/-! ## Methods that nothing stands before -/

/-- Whether what a host is told to define has none of the given names. -/
def Args.sparesNames (args : Args) (names : List String) : Bool :=
  match args.bind? ParserMethod.define.params with
  | some [.text name, _] => name ∉ names
  | _ => true

/-- A law guards names: no host is told to define one of them, and no script writes one. -/
structure Law.Guards (law : Law) (names : List String) : Prop where
  define : ∀ {serial : Nat} {id : HostId} {args : Args} {world : World},
    law.call (.method serial (.host id) "define") args world = true → args.sparesNames names = true
  write : ∀ {object name : String} {term : Term},
    law.action (.write object name term) = true → name ∉ names

/-- No host has a member in place of a method with one of the given names. -/
def World.Unreplaced (names : List String) (world : World) : Prop :=
  ∀ (id : HostId), ∀ name ∈ names, (world.host id).members.get? name = none

section Guarding

variable {law : Law} {names : List String}

theorem Law.Within.guards {outer : Law} (hwithin : law.Within outer)
    (hguards : outer.Guards names) : law.Guards names where
  define hcall := hguards.define (hwithin.call _ _ _ hcall)
  write haction := hguards.write (hwithin.action _ haction)

theorem unreplaced_preserved (hguards : law.Guards names)
    (hmarks : "parent" ∉ names ∧ "position" ∉ names) :
    law.Preserves (World.Unreplaced names) := by
  intro world after hmove hfree id name hname
  have hhost := hmove.host id
  generalize after.host id = host at hhost ⊢
  cases hhost with
  | restart => exact hfree id name hname
  | change hchange =>
      cases hchange with
      | same | records | setNested | advance => exact hfree id name hname
      | made => rfl
      | mark content hmark =>
          refine (Host.members_setAttribute _ _ _ ?_).trans (hfree id name hname)
          rintro rfl
          rcases hmark with rfl | rfl
          exacts [hmarks.1 hname, hmarks.2 hname]
      | define hcall hargs =>
          refine (Host.members_setAttribute _ _ _ ?_).trans (hfree id name hname)
          rintro rfl
          have hspared := hguards.define hcall
          simp only [Args.sparesNames, ParserMethod.params, hargs, decide_eq_true_eq] at hspared
          exact hspared hname
      | write content haction =>
          refine (Host.members_setAttribute _ _ _ ?_).trans (hfree id name hname)
          rintro rfl
          exact hguards.write haction hname

theorem unreplaced_start : World.start.Unreplaced names := fun _ _ _ => rfl

/-- What a quiet run leads to has no other members. -/
theorem World.Unreplaced.quiet {world after : World} (hfree : world.Unreplaced names)
    (hquiet : world.Quiet after) : after.Unreplaced names := by
  intro id name hname
  rw [hquiet.host_eq]
  exact hfree id name hname

end Guarding

section Calls

variable {law : Law} {caller : Value} {rounds depth : Nat} {world after : World} {value : Value}

/-- A call that succeeds under a law was lawful, and did what the called value does. -/
theorem Law.invokeAt_ok {callee : Callee} {args : Args}
    (houtcome : (law.invokeAt rounds depth caller callee args).outcome world =
      (.ok value, after)) :
    ∃ less callable middle, (resolve callee).outcome world = (.ok callable, middle) ∧
      law.asks caller callee callable args middle = true ∧
      (callValue (law.kernel callable rounds less) callable args).outcome middle =
        (.ok value, after) := by
  cases depth with
  | zero => cases houtcome
  | succ depth =>
      rw [invokeAt] at houtcome
      obtain ⟨callable, middle, hresolve, hrest⟩ := bind_ok houtcome
      rw [outcome_bind_ok (outcome_get _)] at hrest
      split at hrest
      next hpermits =>
        exact ⟨depth, callable, middle, hresolve, (Bool.and_eq_true_iff.mp hpermits).1, hrest⟩
      next => cases hrest

/-- A parser that is told to do what it has a method for, by a lawful call and with nothing in the
place of the method, runs the method. -/
theorem Law.sendHost_outcome {id : HostId} (method : ParserMethod) {values : List Value}
    (hclass : (world.host id).hostClass = .parser)
    (hfree : (world.host id).members.get? method.name = none)
    (hlength : values.length = method.params.length)
    (hasks : law.asks caller (.method (.host id) method.name)
      (.method world.serial (.host id) method.name) (.of values)
      (world.withSerial (world.serial + 1)) = true) :
    ((law.kernel caller rounds (depth + 1)).sendHost id method.name values).outcome world =
      (method.run (law.kernel (.method world.serial (.host id) method.name) rounds depth) id
        values).outcome (world.withSerial (world.serial + 1)) := by
  have hmethod : ((world.withSerial (world.serial + 1)).host id).hostClass.method? method.name =
      some (.parser method) := by
    rw [show ((world.withSerial (world.serial + 1)).host id).hostClass = .parser from hclass]
    exact method.named?_name
  have hresolve : (resolve (.method (.host id) method.name)).outcome world =
      (.ok (.method world.serial (.host id) method.name),
        world.withSerial (world.serial + 1)) := by
    have hmember := ((world.host id).attribute?_method method).trans hfree
    refine (hostAttribute_method (isComputed_method _ method) hmember).trans (if_pos ?_)
    rw [show (world.host id).hostClass.method? method.name = _ from hmethod]
    rfl
  change (law.invokeAt rounds (depth + 1) caller (.method (.host id) method.name)
    (.of values)).outcome world = _
  rw [invokeAt, outcome_bind_ok hresolve, outcome_bind_ok (outcome_get _),
    if_pos (by rw [hasks]; rfl), callValue_method _ hmethod, HostMethod.run,
    Args.bind_of_length hlength, pure_bind]
  rfl

theorem sendHost_free_outcome {id : HostId} (method : ParserMethod) {values : List Value}
    (hclass : (world.host id).hostClass = .parser)
    (hfree : (world.host id).members.get? method.name = none)
    (hlength : values.length = method.params.length) :
    ((Kernel.ofDepth rounds (depth + 1)).sendHost id method.name values).outcome world =
      (method.run (Kernel.ofDepth rounds depth) id values).outcome
        (world.withSerial (world.serial + 1)) :=
  sendFree_run_outcome method (parser_method? hclass method) hfree rounds depth hlength

/-- A parser that is asked for its innermost open node, and answers, runs its own method. -/
theorem sendPrev_ok {id : HostId} (hfree : world.Unreplaced ["prev"])
    (houtcome : ((law.kernel caller rounds depth).sendHost id "prev" []).outcome world =
      (.ok value, after)) :
    (Parser.prev id).outcome (world.withSerial (world.serial + 1)) = (.ok value, after) := by
  obtain ⟨less, callable, middle, hresolve, _, hcall⟩ := Law.invokeAt_ok houtcome
  have hmember : (world.host id).attribute? "prev" = none :=
    hfree id _ (List.mem_singleton_self _)
  obtain ⟨⟨method, hmethod⟩, rfl, rfl⟩ := hostAttribute_ok rfl hmember hresolve
  obtain rfl : method = .parser .prev :=
    HostMethod.eq_parser (HostClass.name_of_method? hmethod) rfl
  exact (callValue_method (world.withSerial (world.serial + 1)) hmethod).symm.trans hcall

theorem sendPrev_quiet {id : HostId} (hfree : world.Unreplaced ["prev"])
    (houtcome : ((law.kernel caller rounds depth).sendHost id "prev" []).outcome world =
      (.ok value, after)) : world.Quiet after := by
  have hserial : world.Quiet (world.withSerial (world.serial + 1)) := .of_eq rfl rfl rfl rfl rfl
  have hquiet := Parser.quiet_prev id (world.withSerial (world.serial + 1))
  rw [sendPrev_ok hfree houtcome] at hquiet
  exact hserial.trans hquiet

end Calls

/-! ## What a move does to the attributes a node was given -/

section Extras

variable {law : Law} {inv : World → Prop} {world after : World} {name : String}

theorem extras_addNode (cell : NodeCell) (hextras : cell.extras = .empty) (node : NodeId) :
    ((world.addNode cell).cell node).extras.get? name = (world.cell node).extras.get? name := by
  rw [cell_addNode]
  split
  next heq =>
    rw [hextras, cell_absent (by rw [heq]; exact Nat.lt_irrefl _)]
    rfl
  next => rfl

theorem Law.Change.extras (hchange : law.Change world after) (hname : name ≠ "position")
    (hwrite : ∀ object term, law.action (.write object name term) = false) (node : NodeId) :
    (after.cell node).extras.get? name = (world.cell node).extras.get? name := by
  cases hchange with
  | quiet hquiet => rw [hquiet.cell_eq]
  | newNode => exact extras_addNode _ rfl node
  | newNodeWithin => exact extras_addNode _ rfl node
  | newHost | setNested | advance => rfl
  | writeRecord ref | eraseEntry ref =>
      obtain ⟨_, hcell⟩ := world.cell_changeRecord ref _ node
      rw [hcell]
  | stamp => exact extras_setAttribute _ _ hname.symm world node
  | @define _ _ other _ name =>
      rw [World.cell, forest_setAttribute_host other _ name world]
      rfl
  | write value content haction =>
      refine extras_setAttribute _ _ ?_ world node
      rintro rfl
      cases (hwrite _ _).symm.trans haction

/-- A node is given an attribute by scripts alone. -/
theorem Law.Move.extras (hmove : law.Move inv world after) (hname : name ∉ ["position", "parent"])
    (hwrite : ∀ object term, law.action (.write object name term) = false) (node : NodeId) :
    (after.cell node).extras.get? name = (world.cell node).extras.get? name := by
  simp only [List.mem_cons, List.not_mem_nil, or_false, not_or] at hname
  have hitems : ∀ (world : World) (ref : ListRef) (change : Array Value → Array Value),
      ((world.changeItems ref change).cell node).extras = (world.cell node).extras := by
    intro world ref change
    rw [World.cell_changeItems]
    split <;> rfl
  have hparents : ∀ {child : Value} {parent : NodeId} {middle : World},
      (setAttribute child "parent" (.node parent)).outcome world = (.ok (), middle) →
      (middle.cell node).extras.get? name = (world.cell node).extras.get? name := by
    intro child parent middle hparent
    have hextras := extras_setAttribute child (.node parent) (Ne.symm hname.2) world node
    rwa [hparent] at hextras
  cases hmove with
  | change hchange => exact hchange.extras hname.1 hwrite node
  | restart => exact extras_addNode _ rfl node
  | setListItem | openNode | closeNode => rw [hitems]
  | setParent _ _ hparent => exact hparents hparent
  | attach _ _ hparent =>
      rw [hitems]
      exact hparents hparent

/-- No node has an attribute in place of a method with one of the given names. -/
def World.NodesUnreplaced (names : List String) (world : World) : Prop :=
  ∀ (node : NodeId), ∀ name ∈ names, (world.cell node).extras.get? name = none

theorem nodesUnreplaced_preserved {names : List String} (hguards : law.Guards names)
    (hmarks : "parent" ∉ names ∧ "position" ∉ names) :
    law.Preserves (World.NodesUnreplaced names) := by
  intro world after hmove hfree node name hname
  refine (hmove.extras ?_ (fun object term => ?_) node).trans (hfree node name hname)
  · rintro hmark
    simp only [List.mem_cons, List.not_mem_nil, or_false] at hmark
    rcases hmark with rfl | rfl
    exacts [hmarks.2 hname, hmarks.1 hname]
  · by_contra hwrite
    exact hguards.write (eq_true_of_ne_false hwrite) hname

end Extras

end Rulebook
