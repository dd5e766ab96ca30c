import Rulebook.Proofs.BracketRule
import Rulebook.Proofs.Orderly

/-!
# The bottom of the stack

The stack of a parser is never empty, and its bottom is the root of the tree that the parser builds,
whatever calls its rules make and however they fail, as long as nothing is put in the place of the
stack and of what holds it. So there is always an innermost open node; to close the bottom, or what
carries another label, is refused and changes nothing; and a parse that returns leaves the root
alone open and returns it.
-/

namespace Rulebook

open Run

/-! ## The law -/

/-- The names of what stacks hang on: the attributes that hold roots, open nodes and rules, and the
methods that begin, ask and close. -/
def stackNames : List String :=
  ["ast", "stack", "rules", "parse", "reset", "prev", "pop", "location"]

/-- What is opened is a node, nothing is put in the place of what stacks hang on, and scripts give
no node another list for its children or its notes. -/
def stackKeeping : Law where
  call callable args world :=
    match callable with
    | .method _ (.host _) "push" => world.opensNode args
    | .method _ (.host _) "define" => args.sparesNames stackNames
    | _ => true
  own _ _ _ := true
  action
    | .write _ name _ => name ∉ "nodes" :: "meta" :: stackNames
    | .call function terms named =>
      Function.table.lookup function ≠ some .newNode || (terms.length ≤ 3 && named.isEmpty)
    | _ => true

theorem stackKeeping_write {object name : String} {term : Term}
    (haction : stackKeeping.action (.write object name term) = true) :
    name ∉ ["nodes", "meta"] ∧ name ∉ stackNames := by
  simpa [stackKeeping, not_or, and_assoc] using haction

theorem stackKeeping_guards : stackKeeping.Guards stackNames where
  define hcall := hcall
  write haction := (stackKeeping_write haction).2

/-! ## Stacks with a bottom -/

/-- Items are nodes, a given one at the bottom. -/
structure HasBottom (items : Array Value) (root : NodeId) : Prop where
  bottom : items[0]? = some (.node root)
  nodes : ∀ item ∈ items, ∃ node, item = .node node

/-- No list of open nodes is the children or the notes of a node, or the rules of a host. -/
structure World.StacksApart (world : World) : Prop where
  children : ∀ (node : NodeId) (number : Nat), (world.cell node).children ≠ .list (.stack number)
  notes : ∀ (node : NodeId) (number : Nat), (world.cell node).notes ≠ .list (.stack number)
  rules : ∀ (id : HostId) (number : Nat), (world.host id).rules ≠ some (.list (.stack number))

/-- A host reads, with a root that is at the bottom of its stack. -/
structure World.StandsOn (world : World) (id : HostId) (root : NodeId) (number : Nat) : Prop where
  opened : number < world.openStacks.size
  bottom : HasBottom (world.items (.stack number)) root
  cursor : ∃ cursor, (world.host id).cursor = some cursor
  root : (world.host id).root = some (.node root)
  stack : (world.host id).stack = some (.list (.stack number))

/-- Every host that has a root, or a stack, has its root at the bottom of its stack. -/
structure World.Bottomed (world : World) : Prop where
  unreplaced : world.Unreplaced stackNames
  apart : world.StacksApart
  stands : ∀ id, ((world.host id).root = none ∧ (world.host id).stack = none) ∨
    ∃ root number, world.StandsOn id root number

theorem bottomed_start : World.start.Bottomed where
  unreplaced := unreplaced_start
  apart := ⟨nofun, nofun, nofun⟩
  stands _ := .inl ⟨rfl, rfl⟩

namespace HasBottom

variable {items : Array Value} {root : NodeId}

theorem push (hbottom : HasBottom items root) (node : NodeId) :
    HasBottom (items.push (.node node)) root where
  bottom := by
    have hfirst := hbottom.bottom
    have hpositive : 0 < items.size := (Array.getElem?_eq_some_iff.mp hfirst).1
    rw [Array.getElem?_push, if_neg (Nat.ne_of_lt hpositive)]
    exact hfirst
  nodes item hitem := by
    rcases Array.mem_push.mp hitem with hold | rfl
    · exact hbottom.nodes item hold
    · exact ⟨node, rfl⟩

/-- What is taken off a stack of at least two is not the bottom. -/
theorem pop (hbottom : HasBottom items root) (hsize : 2 ≤ items.size) :
    HasBottom items.pop root where
  bottom := by
    rw [Array.getElem?_pop, if_pos (by omega)]
    exact hbottom.bottom
  nodes item hitem := by
    rw [← Array.mem_toList_iff, Array.toList_pop] at hitem
    exact hbottom.nodes item (Array.mem_toList_iff.mp ((List.dropLast_sublist _).subset hitem))

end HasBottom

/-! ## What a move does to stacks -/

section Moves

variable {law : Law} {inv : World → Prop} {world after : World}

/-- What a node has for its children and its notes is no other list of open nodes than before. -/
def World.HoldsNoMore (world after : World) : Prop :=
  ∀ (node : NodeId) (number : Nat),
    ((after.cell node).children = .list (.stack number) →
      (world.cell node).children = .list (.stack number)) ∧
    ((after.cell node).notes = .list (.stack number) →
      (world.cell node).notes = .list (.stack number))

theorem World.HoldsNoMore.of_forest (hforest : after.forest = world.forest) :
    world.HoldsNoMore after := by
  intro node number
  rw [show after.cell node = world.cell node from congrArg (Forest.cell · node) hforest]
  exact ⟨id, id⟩

/-- A node that is added with lists of its own has no list of open nodes. -/
theorem World.HoldsNoMore.of_add {added : NodeCell}
    (hforest : after.forest = world.forest.add added)
    (hchildren : ∀ number, added.children ≠ .list (.stack number))
    (hnotes : ∀ number, added.notes ≠ .list (.stack number)) : world.HoldsNoMore after := by
  intro node number
  rw [show after.cell node = (world.forest.add added).cell node from
    congrArg (Forest.cell · node) hforest, Forest.cell_add]
  split
  next => exact ⟨fun h => absurd h (hchildren number), fun h => absurd h (hnotes number)⟩
  next => exact ⟨id, id⟩

theorem NodeCell.holders_setAttribute (cell : NodeCell) {name : String} (content : Value)
    (hname : name ∉ ["nodes", "meta"]) :
    (cell.setAttribute name content).children = cell.children ∧
      (cell.setAttribute name content).notes = cell.notes := by
  unfold NodeCell.setAttribute
  split
  case h_4 | h_6 => exact absurd (by decide) hname
  all_goals exact ⟨rfl, rfl⟩

theorem holdsNoMore_setAttribute (value content : Value) {name : String}
    (hname : name ∉ ["nodes", "meta"]) (world : World) :
    world.HoldsNoMore ((setAttribute value name content).outcome world).2 := by
  rcases setAttribute_change value content name world with
    ⟨id, _, hafter⟩ | ⟨id, _, hafter⟩ | hquiet
  · intro node number
    obtain ⟨hchildren, hnotes⟩ := (world.cell node).holders_setAttribute content hname
    rw [hafter, World.changeCell, World.cell, Forest.cell_modify]
    split
    next =>
      rw [show world.forest.cell node = world.cell node from rfl, hchildren, hnotes]
      exact ⟨fun h => h, fun h => h⟩
    next => exact ⟨fun h => h, fun h => h⟩
  · rw [hafter]
    exact .of_forest rfl
  · exact .of_forest hquiet.forest

theorem Law.Change.holdsNoMore (hwithin : law.Within stackKeeping)
    (hchange : law.Change world after) : world.HoldsNoMore after := by
  cases hchange with
  | quiet hquiet => exact .of_forest hquiet.forest
  | newNode => exact .of_add rfl (by simp [NodeCell.fresh]) (by simp [NodeCell.fresh])
  | newNodeWithin _ _ _ _ _ _ haction hfunction hmore =>
      have hfew := hwithin.action _ haction
      simp only [stackKeeping, hfunction, ne_eq, not_true, decide_false, Bool.false_or,
        Bool.and_eq_true, decide_eq_true_eq, List.isEmpty_iff] at hfew
      exact absurd hmore (by rw [not_or, not_not]; exact ⟨by omega, hfew.2⟩)
  | newHost | setNested | advance => exact .of_forest rfl
  | writeRecord ref | eraseEntry ref =>
      intro node number
      obtain ⟨_, hcell⟩ := world.cell_changeRecord ref _ node
      rw [hcell]
      exact ⟨id, id⟩
  | stamp value position => exact holdsNoMore_setAttribute _ _ (by decide) world
  | @define _ _ other _ name => exact .of_forest (forest_setAttribute_host other _ name world)
  | write value content haction =>
      exact holdsNoMore_setAttribute _ _ (stackKeeping_write (hwithin.action _ haction)).1 world

theorem holdsNoMore_changeItems (ref : ListRef) (change : Array Value → Array Value) :
    world.HoldsNoMore (world.changeItems ref change) := by
  intro node number
  rw [World.cell_changeItems]
  split
  next => exact ⟨id, id⟩
  next => exact ⟨id, id⟩

theorem holdsNoMore_told {child : Value} {node : NodeId} {middle : World}
    (htold : (setAttribute child "parent" (.node node)).outcome world = (.ok (), middle)) :
    world.HoldsNoMore middle := by
  have hholds := @holdsNoMore_setAttribute child (.node node) "parent" (by decide) world
  rwa [htold] at hholds

theorem Law.Move.holdsNoMore (hwithin : law.Within stackKeeping)
    (hmove : law.Move inv world after) : world.HoldsNoMore after := by
  cases hmove with
  | change hchange => exact hchange.holdsNoMore hwithin
  | restart => exact .of_add rfl (by simp [NodeCell.fresh]) (by simp [NodeCell.fresh])
  | setListItem | openNode | closeNode => exact holdsNoMore_changeItems _ _
  | setParent _ _ htold => exact holdsNoMore_told htold
  | attach _ _ htold =>
      intro node number
      obtain ⟨hchildren, hnotes⟩ := holdsNoMore_told htold node number
      obtain ⟨hchildren', hnotes'⟩ := holdsNoMore_changeItems _ _ node number
      exact ⟨fun h => hchildren (hchildren' h), fun h => hnotes (hnotes' h)⟩

theorem World.items_changeItems_other {ref other : ListRef} (change : Array Value → Array Value)
    (hother : ref ≠ other) : (world.changeItems ref change).items other = world.items other := by
  classical
  rw [World.items_changeItems, if_neg fun h => hother h.1]

/-- A change of one list of open nodes that keeps bottoms keeps those of all of them. -/
theorem HasBottom.changeItems {number other : Nat} {root : NodeId}
    {change : Array Value → Array Value}
    (hchange : ∀ root, HasBottom (world.items (.stack other)) root →
      HasBottom (change (world.items (.stack other))) root)
    (hbottom : HasBottom (world.items (.stack number)) root) :
    HasBottom ((world.changeItems (.stack other) change).items (.stack number)) root := by
  classical
  rw [World.items_changeItems]
  split
  next hsame =>
    obtain ⟨rfl, _⟩ := ListRef.stack.inj hsame.1
    exact hchange root hbottom
  next => exact hbottom

theorem World.openStacks_changeItems (ref : ListRef) (change : Array Value → Array Value) :
    (world.changeItems ref change).openStacks.size = world.openStacks.size :=
  (world.sameSizes_changeItems ref change).openStacks

/-- What hosts have for their stacks are lists of open nodes. -/
theorem World.Bottomed.exists_stack (hworld : world.Bottomed) {id : HostId} {ref : ListRef}
    (hstack : (world.host id).stack = some (.list ref)) : ∃ number, ref = .stack number := by
  rcases hworld.stands id with ⟨_, hnone⟩ | ⟨_, number, hstands⟩
  · rw [hnone] at hstack
    cases hstack
  · rw [hstands.stack] at hstack
    cases hstack
    exact ⟨number, rfl⟩

/-- A move takes the bottom from under no stack. -/
theorem Law.Move.hasBottom (hwithin : law.Within stackKeeping)
    (hmove : law.Move inv world after) (hworld : world.Bottomed) {number : Nat} {root : NodeId}
    (hopened : number < world.openStacks.size)
    (hbottom : HasBottom (world.items (.stack number)) root) :
    number < after.openStacks.size ∧ HasBottom (after.items (.stack number)) root := by
  have hsame : ∀ {other : World}, other.openStacks = world.openStacks →
      number < other.openStacks.size ∧ HasBottom (other.items (.stack number)) root := by
    intro other hstacks
    rw [World.items, hstacks]
    exact ⟨hopened, hbottom⟩
  have htells : ∀ {child : Value} {node : NodeId} {middle : World},
      (setAttribute child "parent" (.node node)).outcome world = (.ok (), middle) →
        middle.openStacks = world.openStacks := by
    intro child node middle htold
    have hstacks := openStacks_setAttribute child (.node node) "parent" world
    rwa [htold] at hstacks
  cases hmove with
  | change hchange => exact hsame hchange.openStacks
  | restart id input =>
      rw [World.size_openStacks_restart, World.items_restart, if_neg (Nat.ne_of_lt hopened)]
      exact ⟨Nat.lt_succ_of_lt hopened, hbottom⟩
  | setListItem place content hheld =>
      rw [World.openStacks_changeItems, World.items_changeItems_other]
      · exact ⟨hopened, hbottom⟩
      · rintro rfl
        rcases hheld with ⟨node, hnotes⟩ | ⟨id, hrules⟩
        · exact hworld.apart.notes node number hnotes
        · exact hworld.apart.rules id number hrules
  | openNode hcall hargs _ hattached hstack =>
      obtain ⟨other, rfl⟩ := hworld.exists_stack hstack
      obtain ⟨node, _, rfl⟩ := opensNode_attached (hwithin.call _ _ _ hcall) hargs hattached
      rw [World.openStacks_changeItems]
      exact ⟨hopened, .changeItems (fun _ hother => hother.push node) hbottom⟩
  | closeNode hstack hsize =>
      obtain ⟨other, rfl⟩ := hworld.exists_stack hstack
      rw [World.openStacks_changeItems]
      exact ⟨hopened, .changeItems (fun _ hother => hother.pop hsize) hbottom⟩
  | setParent _ _ htold => exact hsame (htells htold)
  | attach _ _ htold hchildren =>
      rw [World.openStacks_changeItems, World.items_changeItems_other]
      · exact hsame (htells htold)
      · rintro rfl
        exact hworld.apart.children _ number ((holdsNoMore_told htold _ number).1 hchildren)

/-- Writing an attribute that stacks do not hang on changes none of those that they do. -/
theorem Host.setAttribute_spares (host : Host) (content : Value) {name : String}
    (hname : name ∉ stackNames) :
    (host.setAttribute name content).root = host.root ∧
      (host.setAttribute name content).stack = host.stack ∧
      (host.setAttribute name content).rules = host.rules := by
  rw [Host.root_setAttribute, Host.stack_setAttribute, Host.rules_setAttribute,
    if_neg (by rintro rfl; exact hname (by decide)),
    if_neg (by rintro rfl; exact hname (by decide)),
    if_neg (by rintro rfl; exact hname (by decide))]
  exact ⟨rfl, rfl, rfl⟩

/-- What a lawful change makes of a host has the same root, stack and rules and still a cursor,
unless it is a new host. -/
theorem Law.HostChange.spares {id : HostId} {host : Host} (hwithin : law.Within stackKeeping)
    (hchange : law.HostChange world id host) :
    (host.root = (world.host id).root ∧ host.stack = (world.host id).stack ∧
        host.rules = (world.host id).rules ∧
        ((∃ cursor, (world.host id).cursor = some cursor) → ∃ cursor, host.cursor = some cursor)) ∨
      (host.root = none ∧ host.stack = none ∧ ∀ number, host.rules ≠ some (.list (.stack number))) :=
  by
  have hguards := hwithin.guards stackKeeping_guards
  have hset : ∀ {name : String} (content : Value), name ∉ stackNames →
      ((world.host id).setAttribute name content).root = (world.host id).root ∧
        ((world.host id).setAttribute name content).stack = (world.host id).stack ∧
        ((world.host id).setAttribute name content).rules = (world.host id).rules ∧
        ((∃ cursor, (world.host id).cursor = some cursor) →
          ∃ cursor, ((world.host id).setAttribute name content).cursor = some cursor) := by
    intro name content hname
    obtain ⟨hroot, hstack, hrules⟩ := (world.host id).setAttribute_spares content hname
    refine ⟨hroot, hstack, hrules, fun hcursor => ?_⟩
    rwa [Host.cursor_setAttribute]
  cases hchange with
  | same | records | setNested => exact .inl ⟨rfl, rfl, rfl, fun h => h⟩
  | advance => exact .inl ⟨rfl, rfl, rfl, fun _ => ⟨_, rfl⟩⟩
  | made _ _ rules _ _ hrules =>
      refine .inr ⟨rfl, rfl, fun number hlist => ?_⟩
      cases hrules _ hlist
  | mark content hname =>
      exact .inl (hset content (by rcases hname with rfl | rfl <;> decide))
  | define hcall hargs =>
      have hspared := hguards.define hcall
      simp only [Args.sparesNames, ParserMethod.params, hargs, decide_eq_true_eq] at hspared
      exact .inl (hset _ hspared)
  | write content haction => exact .inl (hset content (hguards.write haction))

/-- A parser that begins to read has its new root at the bottom of its new stack. -/
theorem World.standsOn_restart {id : HostId} (hpresent : id < world.hosts.size) (input : Value) :
    (world.restart id input).StandsOn id world.forest.size world.openStacks.size := by
  have hhost := World.host_restart input hpresent
  exact
    { opened := by rw [World.size_openStacks_restart]; exact Nat.lt_succ_self _
      bottom := by
        rw [World.items_restart, if_pos rfl]
        exact ⟨rfl, fun item hitem => ⟨_, by simpa using hitem⟩⟩
      cursor := ⟨_, by rw [hhost]⟩
      root := by rw [hhost]
      stack := by rw [hhost] }

/-- A host that reads goes on standing on its root where a move leaves its attributes. -/
theorem World.StandsOn.move {id : HostId} {root : NodeId} {number : Nat}
    (hstands : world.StandsOn id root number) (hwithin : law.Within stackKeeping)
    (hmove : law.Move inv world after) (hworld : world.Bottomed)
    (hroot : (after.host id).root = (world.host id).root)
    (hstack : (after.host id).stack = (world.host id).stack)
    (hcursor : ∃ cursor, (after.host id).cursor = some cursor) :
    after.StandsOn id root number := by
  obtain ⟨hopened, hbottom⟩ := hmove.hasBottom hwithin hworld hstands.opened hstands.bottom
  exact ⟨hopened, hbottom, hcursor, hroot.trans hstands.root, hstack.trans hstands.stack⟩

theorem Law.Move.stands (hwithin : law.Within stackKeeping) (hmove : law.Move inv world after)
    (hworld : world.Bottomed) (id : HostId) :
    ((after.host id).root = none ∧ (after.host id).stack = none) ∨
      ∃ root number, after.StandsOn id root number := by
  have hstays : (after.host id).root = (world.host id).root →
      (after.host id).stack = (world.host id).stack →
      ((∃ cursor, (world.host id).cursor = some cursor) →
        ∃ cursor, (after.host id).cursor = some cursor) →
      ((after.host id).root = none ∧ (after.host id).stack = none) ∨
        ∃ root number, after.StandsOn id root number := by
    intro hroot hstack hcursor
    rcases hworld.stands id with ⟨hnone, hnone'⟩ | ⟨root, number, hstands⟩
    · exact .inl ⟨hroot.trans hnone, hstack.trans hnone'⟩
    · exact .inr ⟨root, number,
        hstands.move hwithin hmove hworld hroot hstack (hcursor hstands.cursor)⟩
  rcases hmove.hosts with hchange | ⟨other, input, _, rfl⟩
  · rcases (hchange id).spares hwithin with ⟨hroot, hstack, _, hcursor⟩ | ⟨hroot, hstack, _⟩
    · exact hstays hroot hstack hcursor
    · exact .inl ⟨hroot, hstack⟩
  · have hhost := world.host_restart_of other input id
    split at hhost
    next hsame =>
      obtain ⟨rfl, hpresent⟩ := hsame
      exact .inr ⟨_, _, world.standsOn_restart hpresent input⟩
    next =>
      rw [hhost] at hstays ⊢
      exact hstays rfl rfl fun h => h

theorem bottomed_preserved (hwithin : law.Within stackKeeping) :
    law.Preserves World.Bottomed := by
  intro world after hmove hworld
  have hholds := hmove.holdsNoMore hwithin
  have hrules : ∀ (id : HostId) (number : Nat),
      (after.host id).rules ≠ some (.list (.stack number)) := by
    intro id number
    have hhost := hmove.host id
    generalize after.host id = host at hhost ⊢
    cases hhost with
    | restart => exact hworld.apart.rules id number
    | change hchange =>
        rcases hchange.spares hwithin with ⟨_, _, hrules, _⟩ | ⟨_, _, hrules⟩
        · rw [hrules]
          exact hworld.apart.rules id number
        · exact hrules number
  exact
    { unreplaced := unreplaced_preserved (hwithin.guards stackKeeping_guards) (by decide) world
        after (hmove.mono fun _ => World.Bottomed.unreplaced) hworld.unreplaced
      apart :=
        { children := fun node number hlist =>
            hworld.apart.children node number ((hholds node number).1 hlist)
          notes := fun node number hlist =>
            hworld.apart.notes node number ((hholds node number).2 hlist)
          rules := hrules }
      stands := hmove.stands hwithin hworld }

theorem bottomed_clears {before : World} {callable : Value} {args : Args}
    (hown : law.OwnCall before callable args after) :
    stackKeeping.call callable args after = true := by
  cases hown <;> rfl

theorem stackKeeping_upholds : stackKeeping.Upholds World.Bottomed :=
  ⟨bottomed_preserved (.refl _), fun hown _ _ => bottomed_clears hown⟩

end Moves

/-! ## What follows for a parser -/

/-- Two values differ, wherever serial numbers are counted from. -/
def World.Differ (world : World) (first second : Value) : Prop :=
  ∀ serial, (world.withSerial serial).equal? first second = some false

/-- A parser can rely on its stack. -/
structure World.StackSafe (world : World) (id : HostId) : Prop where
  /-- The stack is not empty, and the root of the parser is at its bottom. -/
  bottom : ∃ root number rest, (world.host id).root = some (.node root) ∧
    (world.host id).stack = some (.list (.stack number)) ∧
      (world.items (.stack number)).toList = .node root :: rest
  /-- There is an innermost open node. -/
  prev : ∀ rounds depth number, (world.host id).stack = some (.list (.stack number)) →
    ((Kernel.ofDepth rounds (depth + 1)).sendHost id "prev" []).Gives world fun value after =>
      (world.items (.stack number)).back? = some value ∧ after = world
  /-- The bottom is never closed, and neither is a node under the label of another. -/
  pop : ∀ rounds depth number input label,
    (world.host id).stack = some (.list (.stack number)) →
    (world.host id).input = some (.text input) →
    ((world.items (.stack number)).size = 1 ∨
      ∃ top, (world.items (.stack number)).back? = some (.node top) ∧
        world.Differ (world.cell top).label label) →
    ((Kernel.ofDepth rounds (depth + 2)).sendHost id "pop" [label]).Fails world fun fault after =>
      (∃ text pointer, fault = .noOpenNode text pointer) ∧ after = world
  /-- A lawful parse that returns leaves the root alone open, and returns it. -/
  parse : ∀ caller rounds depth text value after,
    ((stackKeeping.kernel caller rounds depth).sendHost id "parse" [text]).outcome world =
      (.ok value, after) →
    ((Kernel.ofDepth rounds depth).sendHost id "parse" [text]).outcome world =
        (.ok value, after) ∧
      (after.host id).root = some value ∧
      ∃ number, (after.host id).stack = some (.list (.stack number)) ∧
        after.items (.stack number) = #[value]

section Safe

variable {world after : World} {id : HostId} {root : NodeId} {number rounds depth : Nat}

theorem World.StandsOn.size_pos (hstands : world.StandsOn id root number) :
    0 < (world.items (.stack number)).size :=
  (Array.getElem?_eq_some_iff.mp hstands.bottom.bottom).1

/-- The last of the open nodes is a node. -/
theorem World.StandsOn.innermost (hstands : world.StandsOn id root number) :
    ∃ top, (world.items (.stack number)).back? = some (.node top) ∧ ∀ serial,
      (getItem (.list (.stack number)) (.int (-1))).outcome (world.withSerial serial) =
        (.ok (.node top), world.withSerial serial) := by
  obtain ⟨below, last, hitems⟩ : ∃ (below : Array Value) (last : Value),
      world.items (.stack number) = below.push last :=
    ⟨_, _, Array.eq_push_pop_back!_of_size_ne_zero (Nat.ne_of_gt hstands.size_pos)⟩
  obtain ⟨top, rfl⟩ := hstands.bottom.nodes last (hitems ▸ Array.mem_push_self)
  refine ⟨top, by rw [hitems, Array.back?_push], fun serial => ?_⟩
  rw [getItem, outcome_bind_ok (outcome_items _ _),
    show (world.withSerial serial).items (.stack number) = _ from hitems, atIndex_last,
    outcome_pure]

theorem World.StandsOn.prev_gives (hstands : world.StandsOn id root number)
    (hworld : world.Bottomed) (hclass : (world.host id).hostClass = .parser) :
    ((Kernel.ofDepth rounds (depth + 1)).sendHost id "prev" []).Gives world fun value after =>
      (world.items (.stack number)).back? = some value ∧ after = world := by
  obtain ⟨top, htop, hitem⟩ := hstands.innermost
  refine sendFree_ends .prev (parser_method? hclass .prev)
    (hworld.unreplaced id "prev" (by decide)) [] rfl ?_
  refine Ends.look _ (hostPart_look "stack" hstands.stack) fun serial => ?_
  exact ⟨_, world, serial, hitem serial, _, rfl, htop, rfl⟩

/-- To close the bottom, or a node that carries another label than the one that is asked for, is
refused and changes nothing. -/
theorem World.StandsOn.pop_fails (hstands : world.StandsOn id root number)
    (hworld : world.Bottomed) (hclass : (world.host id).hostClass = .parser) {input : String}
    (hinput : (world.host id).input = some (.text input)) {label : Value}
    (hrefused : (world.items (.stack number)).size = 1 ∨
      ∃ top, (world.items (.stack number)).back? = some (.node top) ∧
        world.Differ (world.cell top).label label) :
    ((Kernel.ofDepth rounds (depth + 2)).sendHost id "pop" [label]).Fails world fun fault after =>
      (∃ text pointer, fault = .noOpenNode text pointer) ∧ after = world := by
  obtain ⟨cursor, hcursor⟩ := hstands.cursor
  have hat : world.IsAt id input cursor :=
    ⟨hinput, hcursor, parser_method? hclass .location,
      hworld.unreplaced id "location" (by decide)⟩
  have hcomplains : (Parser.noOpenNode (Kernel.ofDepth rounds (depth + 1)) id label).Fails world
      fun fault after => (∃ text pointer, fault = .noOpenNode text pointer) ∧ after = world := by
    refine Fails.mono (noOpenNode_shows hat label) ?_
    rintro _ _ ⟨⟨_, rfl⟩, rfl⟩
    exact ⟨⟨_, _, rfl⟩, rfl⟩
  refine sendFree_ends .pop (parser_method? hclass .pop)
    (hworld.unreplaced id "pop" (by decide)) [label] rfl ?_
  refine Ends.look _ (hostPart_look "stack" hstands.stack) ?_
  refine Ends.look (world.items (.stack number)).size (fun _ => rfl) ?_
  split
  next => exact hcomplains
  next hmany =>
    obtain ⟨top, htop, hdiffer⟩ := hrefused.resolve_left (by omega)
    obtain ⟨other, hother, hitem⟩ := hstands.innermost
    cases htop.symm.trans hother
    have hlabel : ∀ serial, (attributeOf (.node top) "type").outcome (world.withSerial serial) =
        (.ok (world.cell top).label, world.withSerial serial) := fun _ => rfl
    have hequal : ∀ serial, (equal (world.cell top).label label).outcome
        (world.withSerial serial) = (.ok false, world.withSerial serial) := by
      intro serial
      rw [equal, outcome_bind_ok (outcome_get _), hdiffer serial]
      rfl
    refine Ends.look _ hitem ?_
    refine Ends.look _ hlabel ?_
    exact Ends.look false hequal hcomplains

theorem unclosed_not_ok {stack value : Value} :
    (Parser.unclosed stack).outcome world ≠ (.ok value, after) := by
  intro hok
  obtain ⟨_, _, _, hlabel⟩ := bind_ok hok
  obtain ⟨_, _, _, htext⟩ := bind_ok hlabel
  obtain ⟨_, _, _, hfail⟩ := bind_ok htext
  cases hfail

/-- A parse that gives a value gives the root of the parser, once it has looked that no more than
one node is open. -/
theorem parse_ok {kernel : Kernel} {text value : Value}
    (houtcome : (Parser.parse kernel id text).outcome world = (.ok value, after)) :
    (after.host id).root = some value ∧ ∀ number,
      (after.host id).stack = some (.list (.stack number)) →
        (after.items (.stack number)).size ≤ 1 := by
  rw [Parser.parse] at houtcome
  obtain ⟨_, begun, _, hsteps⟩ := bind_ok houtcome
  obtain ⟨_, _, _, hfinish⟩ := bind_ok hsteps
  obtain ⟨stack, reached, hpart, hrest⟩ := bind_ok hfinish
  obtain ⟨hopen, rfl⟩ := hostPart_ok hpart
  obtain ⟨size, looked, hsize, hend⟩ := bind_ok hrest
  split at hend
  next => exact absurd hend unclosed_not_ok
  next hfew =>
    obtain ⟨hroot, rfl⟩ := hostPart_ok hend
    refine ⟨hroot, fun number hstack => ?_⟩
    have hquiet := quiet_lengthOf stack reached
    rw [hsize] at hquiet
    rw [hquiet.host_eq] at hstack
    obtain rfl := Option.some.inj (hopen.symm.trans hstack)
    obtain ⟨rfl, rfl⟩ := lengthOf_list_ok hsize
    exact Nat.le_of_not_lt hfew

/-- A lawful parse that returns goes as it goes anyway, leaves the root alone open and returns
it. -/
theorem World.Bottomed.parse_returns (hworld : world.Bottomed)
    (hclass : (world.host id).hostClass = .parser) {caller text value : Value}
    (houtcome : ((stackKeeping.kernel caller rounds depth).sendHost id "parse" [text]).outcome
      world = (.ok value, after)) :
    ((Kernel.ofDepth rounds depth).sendHost id "parse" [text]).outcome world =
        (.ok value, after) ∧
      (after.host id).root = some value ∧
      ∃ number, (after.host id).stack = some (.list (.stack number)) ∧
        after.items (.stack number) = #[value] := by
  have hover := Law.oversees_free stackKeeping_upholds caller rounds depth
  obtain ⟨hafter, hfree⟩ := @Law.Oversees.sendHost _ _ _ _ _ hover id "parse" (fun _ => rfl)
    [text] world hworld
  rw [houtcome] at hafter hfree
  refine ⟨hfree.resolve_left nofun, ?_⟩
  -- the parse itself is what gave the value
  have hparse : ∃ begun, ∃ kernel,
      (Parser.parse kernel id text).outcome begun = (.ok value, after) := by
    cases depth with
    | zero => cases houtcome
    | succ depth =>
        have hasks : stackKeeping.asks caller (.method (.host id) "parse")
          (.method world.serial (.host id) "parse") (.of [text])
          (world.withSerial (world.serial + 1)) = true := rfl
        have hsent := @Law.sendHost_outcome _ _ rounds depth _ _ .parse _ hclass
          (hworld.unreplaced id "parse" (by decide)) rfl hasks
        exact ⟨_, _, hsent.symm.trans houtcome⟩
  obtain ⟨begun, kernel, hparse⟩ := hparse
  obtain ⟨hroot, hfew⟩ := parse_ok hparse
  refine ⟨hroot, ?_⟩
  rcases hafter.stands id with ⟨hnone, _⟩ | ⟨root, number, hstands⟩
  · cases hroot.symm.trans hnone
  · refine ⟨number, hstands.stack, ?_⟩
    cases hroot.symm.trans hstands.root
    -- of a list with one item, the first item is all
    have hone : (after.items (.stack number)).size = 1 :=
      Nat.le_antisymm (hfew number hstands.stack) hstands.size_pos
    obtain ⟨item, hitem⟩ := Array.size_eq_one_iff.mp hone
    have hbottom := hstands.bottom.bottom
    rw [hitem] at hbottom ⊢
    cases hbottom
    rfl

theorem World.Bottomed.stackSafe (hworld : world.Bottomed)
    (hclass : (world.host id).hostClass = .parser) {value : Value}
    (hroot : (world.host id).root = some value) : world.StackSafe id := by
  rcases hworld.stands id with ⟨hnone, _⟩ | ⟨root, number, hstands⟩
  · cases hroot.symm.trans hnone
  have hnumber : ∀ {other : Nat}, (world.host id).stack = some (.list (.stack other)) →
      number = other := by
    intro other hstack
    cases hstands.stack.symm.trans hstack
    rfl
  refine
    { bottom := ?_
      prev := ?_
      pop := ?_
      parse := fun _ _ _ _ _ _ => hworld.parse_returns hclass }
  · rcases hitems : world.items (.stack number) with ⟨items⟩
    have hbottom := hstands.bottom.bottom
    cases items with
    | nil => rw [hitems] at hbottom; cases hbottom
    | cons first rest =>
        refine ⟨root, number, rest, hstands.root, hstands.stack, ?_⟩
        rw [hitems] at hbottom ⊢
        cases hbottom
        rfl
  · intro rounds depth other hstack
    cases hnumber hstack
    exact hstands.prev_gives hworld hclass
  · intro rounds depth other input label hstack hinput hrefused
    cases hnumber hstack
    exact hstands.pop_fails hworld hclass hinput hrefused

end Safe

/-- A parser has a root as soon as it is made. -/
theorem newParser_root {world after : World} {options : Value} {id : HostId}
    (hmade : (newParser .parser options).outcome world = (.ok id, after)) :
    (after.host id).hostClass = .parser ∧ ∃ root, (after.host id).root = some root := by
  rw [newParser] at hmade
  obtain ⟨own, middle, _, hrest⟩ := bind_ok hmade
  let made := middle.addHost { Host.bare .parser with
    options := some (.record (.options middle.hosts.size)), ownOptions := own
    rules := some (.record (.rules middle.hosts.size))
    patterns := some (.record (.patterns middle.hosts.size)) }
  have hnew : (Except.ok middle.hosts.size, made.restart middle.hosts.size (.text "")) =
      (Except.ok id, after) := hrest
  cases hnew
  have hpresent : middle.hosts.size < made.hosts.size := by simp [made, World.addHost]
  rw [World.host_restart _ hpresent]
  refine ⟨?_, _, rfl⟩
  rw [World.host_addHost, if_pos rfl]
  rfl

/-- Throughout a run that leaves stacks to their parsers, whatever is called in whatever order and
however it fails, every parser can rely on its stack; and a parser has a root from the start. -/
theorem stack_bottom_throughout {rounds depth : Nat} {body : List Stmt}
    (hkeeps : stackKeeping.Keeps rounds depth body) :
    (∀ (world after : World) (options : Value) (id : HostId),
      (newParser .parser options).outcome world = (.ok id, after) →
        (after.host id).hostClass = .parser ∧ ∃ root, (after.host id).root = some root) ∧
      Throughout (fun world => ∀ id root, (world.host id).hostClass = .parser →
        (world.host id).root = some root → world.StackSafe id) rounds depth body :=
  ⟨fun _ _ _ _ => newParser_root,
    hkeeps.throughout stackKeeping_upholds bottomed_start fun _ hworld _ _ hclass hroot =>
      hworld.stackSafe hclass hroot⟩

/-- A rule that reads another text in the middle of a parse, which fails and leaves a node open, and
then tries to close the root. -/
def againScript : List Stmt :=
  [.act (.send "self" "match" [.datum (.text "!")] []) (some "found"),
    .branch (.present (.var "found"))
      [.attempt [.act (.send "self" "parse" [.datum (.text "(")] []) none] "error" [],
        .attempt [.act (.send "self" "pop" [.datum (.text "root")] []) none] "error" []] []]

/-- A text is read by rules for brackets, for letters and for what reads again. -/
def interruptedScript : List Stmt :=
  [.act (.call "Parser" [] []) (some "parser"),
    .act (.send "parser" "set"
      [.datum (.text "open"),
        .callback "open" (openScript (.datum (.text "[(]")) "list")] []) none,
    .act (.send "parser" "set"
      [.datum (.text "close"),
        .callback "close" (closeScript (.datum (.text "[)]")) "list")] []) none,
    .act (.send "parser" "set" [.datum (.text "again"), .callback "again" againScript] []) none,
    .act (.call "capture_rule"
      [.var "parser", .datum (.text "letter"), .datum (.text "[a-z]")] []) none,
    .attempt [.act (.send "parser" "parse" [.datum (.text "(a!)")] []) (some "tree")] "error" [],
    .attempt [.act (.send "parser" "pop" [.datum (.text "root")] []) none] "error" [],
    .act (.send "parser" "parse" [.datum (.text "(a)")] []) (some "tree")]

theorem stack_bottom_interrupted :
    stackKeeping.Keeps 12 12 interruptedScript ∧
      Throughout (fun world => ∀ id root, (world.host id).hostClass = .parser →
        (world.host id).root = some root → world.StackSafe id) 12 12 interruptedScript :=
  have hkeeps : stackKeeping.Keeps 12 12 interruptedScript := by decide +kernel
  ⟨hkeeps, (stack_bottom_throughout hkeeps).2⟩

end Rulebook
