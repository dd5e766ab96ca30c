import Rulebook.Forest
import Rulebook.Host
import Rulebook.Notice
import Rulebook.Datum

/-!
# The world of a run

All that a run can change: the nodes, the hosts, the lists and records, the variables, and what was
reported and traced. Writing to one of them changes no other, and nothing where there is none.
-/

namespace Rulebook

/-- The state of everything. -/
structure World where
  forest : Forest
  hosts : Array Host
  /-- The lists of open nodes that parsers began with. -/
  openStacks : Array (Array Value)
  /-- The lists that belong to no node and no parser. -/
  lists : Array (Array Value)
  /-- The records that belong to no node and no host. -/
  records : Array Record
  /-- Attributes that values other than nodes and hosts were given. -/
  extras : Table Key (Table String Value)
  /-- Variables seen everywhere. -/
  globals : Table String Value
  /-- Variables of the callback that is running, or of the script outside callbacks. -/
  frame : Table String Value
  notices : Array Notice
  traces : Array Datum
  /-- The next serial number. -/
  serial : Nat
deriving Inhabited

namespace World

/-- The world before anything happened. -/
def start : World :=
  ⟨.empty, #[], #[], #[], #[], .empty, .empty, .empty, #[], #[], 0⟩

/-! ## Nodes and hosts -/

/-- What a node is made of. -/
def cell (world : World) (id : NodeId) : NodeCell := world.forest.cell id

/-- The world with one node changed. -/
def changeCell (world : World) (id : NodeId) (change : NodeCell → NodeCell) : World :=
  { world with forest := world.forest.modify id change }

/-- A host; a number that no host has gives an empty one. -/
def host (world : World) (id : HostId) : Host := world.hosts.getD id default

/-- The world with a host more. -/
def addHost (world : World) (host : Host) : World := { world with hosts := world.hosts.push host }

/-- The world with one host changed. -/
def changeHost (world : World) (id : HostId) (change : Host → Host) : World :=
  { world with hosts := world.hosts.modify id change }

/-- A new host changes no other. -/
theorem host_addHost (world : World) (host : Host) (id : HostId) :
    (world.addHost host).host id = if id = world.hosts.size then host else world.host id := by
  simp only [World.host, World.addHost, Array.getD_eq_getD_getElem?, Array.getElem?_push]
  split <;> simp_all

/-- Changing a host changes no other, and nothing where there is no host. -/
theorem host_changeHost (world : World) (id other : HostId) (change : Host → Host) :
    (world.changeHost id change).host other =
      if id = other ∧ other < world.hosts.size then change (world.host other)
      else world.host other := by
  simp only [World.host, World.changeHost, Array.getD_eq_getD_getElem?, Array.getElem?_modify]
  by_cases same : id = other
  · subst same
    by_cases inside : id < world.hosts.size <;> simp [inside]
  · simp [same]

/-! ## Lists and records -/

/-- What is in a list. -/
def items (world : World) : ListRef → Array Value
  | .children node => (world.cell node).ownChildren
  | .stack number => world.openStacks.getD number #[]
  | .made number => world.lists.getD number #[]

/-- The world with the content of a list changed. -/
def changeItems (world : World) (ref : ListRef) (change : Array Value → Array Value) : World :=
  match ref with
  | .children node =>
    world.changeCell node fun cell => { cell with ownChildren := change cell.ownChildren }
  | .stack number => { world with openStacks := world.openStacks.modify number change }
  | .made number => { world with lists := world.lists.modify number change }

/-- What is in a record. -/
def record (world : World) : RecordRef → Record
  | .notes node => (world.cell node).ownNotes
  | .options host => (world.host host).ownOptions
  | .rules host => (world.host host).ownRules
  | .patterns host => (world.host host).ownPatterns
  | .made number => world.records.getD number default

/-- The world with the content of a record changed. -/
def changeRecord (world : World) (ref : RecordRef) (change : Record → Record) : World :=
  match ref with
  | .notes node =>
    world.changeCell node fun cell => { cell with ownNotes := change cell.ownNotes }
  | .options host =>
    world.changeHost host fun host => { host with ownOptions := change host.ownOptions }
  | .rules host =>
    world.changeHost host fun host => { host with ownRules := change host.ownRules }
  | .patterns host =>
    world.changeHost host fun host => { host with ownPatterns := change host.ownPatterns }
  | .made number => { world with records := world.records.modify number change }

/-- Whether there is such a list. -/
def HasList (world : World) : ListRef → Prop
  | .children node => node < world.forest.size
  | .stack number => number < world.openStacks.size
  | .made number => number < world.lists.size

/-- Whether there is such a record. -/
def HasRecord (world : World) : RecordRef → Prop
  | .notes node => node < world.forest.size
  | .options host | .rules host | .patterns host => host < world.hosts.size
  | .made number => number < world.records.size

/-- Changing a list changes no other, and nothing where there is no list. -/
theorem items_changeItems (world : World) (ref other : ListRef)
    (change : Array Value → Array Value) [Decidable (world.HasList other)] :
    (world.changeItems ref change).items other =
      if ref = other ∧ world.HasList other then change (world.items other)
      else world.items other := by
  cases ref with
  | children node =>
    cases other with
    | children node' =>
      simp only [items, changeItems, changeCell, cell, Forest.cell_modify, ListRef.children.injEq,
        HasList]
      split <;> rfl
    | stack | made => simp [items, changeItems, changeCell]
  | stack number =>
    cases other with
    | stack number' =>
      simp only [items, changeItems, HasList, ListRef.stack.injEq, Array.getD_eq_getD_getElem?,
        Array.getElem?_modify]
      by_cases same : number = number'
      · subst same
        by_cases inside : number < world.openStacks.size <;> simp [inside]
      · simp [same]
    | children | made => simp [items, changeItems, cell]
  | made number =>
    cases other with
    | made number' =>
      simp only [items, changeItems, HasList, ListRef.made.injEq, Array.getD_eq_getD_getElem?,
        Array.getElem?_modify]
      by_cases same : number = number'
      · subst same
        by_cases inside : number < world.lists.size <;> simp [inside]
      · simp [same]
    | children | stack => simp [items, changeItems, cell]

/-- Changing a record changes no other, and nothing where there is no record. -/
theorem record_changeRecord (world : World) (ref other : RecordRef) (change : Record → Record)
    [Decidable (world.HasRecord other)] :
    (world.changeRecord ref change).record other =
      if ref = other ∧ world.HasRecord other then change (world.record other)
      else world.record other := by
  cases ref with
  | notes node =>
    cases other with
    | notes node' =>
      simp only [record, changeRecord, changeCell, cell, Forest.cell_modify, RecordRef.notes.injEq,
        HasRecord]
      split <;> rfl
    | options | rules | patterns | made => simp [record, changeRecord, changeCell, host]
  | options id =>
    cases other with
    | options id' =>
      simp only [record, changeRecord, host_changeHost, RecordRef.options.injEq, HasRecord]
      split <;> rfl
    | rules | patterns =>
      simp only [record, changeRecord, host_changeHost, reduceCtorEq, false_and, if_false]
      split <;> rfl
    | notes | made => simp [record, changeRecord, changeHost, cell]
  | rules id =>
    cases other with
    | rules id' =>
      simp only [record, changeRecord, host_changeHost, RecordRef.rules.injEq, HasRecord]
      split <;> rfl
    | options | patterns =>
      simp only [record, changeRecord, host_changeHost, reduceCtorEq, false_and, if_false]
      split <;> rfl
    | notes | made => simp [record, changeRecord, changeHost, cell]
  | patterns id =>
    cases other with
    | patterns id' =>
      simp only [record, changeRecord, host_changeHost, RecordRef.patterns.injEq, HasRecord]
      split <;> rfl
    | options | rules =>
      simp only [record, changeRecord, host_changeHost, reduceCtorEq, false_and, if_false]
      split <;> rfl
    | notes | made => simp [record, changeRecord, changeHost, cell]
  | made number =>
    cases other with
    | made number' =>
      simp only [record, changeRecord, HasRecord, RecordRef.made.injEq,
        Array.getD_eq_getD_getElem?, Array.getElem?_modify]
      by_cases same : number = number'
      · subst same
        by_cases inside : number < world.records.size <;> simp [inside]
      · simp [same]
    | notes | options | rules | patterns => simp [record, changeRecord, cell, host]

/-! ## Questions about values -/

/-- Whether a value counts as set: null, zero and what is empty do not. -/
def isSet (world : World) : Value → Bool
  | .null => false
  | .bool value => value
  | .int value => value != 0
  | .decimal value => value.digits != 0
  | .text value | .bytes value => !value.isEmpty
  | .list ref => !(world.items ref).isEmpty
  | .record ref => !(world.record ref).entries.isEmpty
  | _ => true

/-- The kinds that a value is a host of. -/
def kindsOf (world : World) : Value → List HostKind
  | .host id => [HostKind.facade, HostKind.parser].filter (world.host id).hostClass.isA
  | _ => []

/-- A bound on how deep values can be nested without coming back to one of them. -/
def extent (world : World) : Nat :=
  (world.forest.size * 2 + world.hosts.size * 3 + world.openStacks.size + world.lists.size +
    world.records.size + 2) * (world.serial + 2)

end World

end Rulebook
