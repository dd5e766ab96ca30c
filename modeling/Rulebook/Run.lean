import Rulebook.World.Equality
import Rulebook.World.Spelling
import Rulebook.Fault

/-!
# Runs

A run computes on the world. It either ends with a result or fails with a fault, and what it
changed before a fault stays changed. `Run.outcome` is the view of a run as a function of the
world it begins in; each primitive has one equation under it.
-/

namespace Rulebook

/-- A computation on the world. -/
abbrev Run := ExceptT Fault (StateM World)

namespace Run

/-- How a run ends that begins in a world, and the world it leaves behind. -/
def outcome {α : Type} (run : Run α) (world : World) : Except Fault α × World :=
  run.run.run world

/-- Fails with a fault. -/
def fail {α : Type} (fault : Fault) : Run α := throw fault

/-- Runs a computation and gives its outcome as a value. -/
def observe {α : Type} (run : Run α) : Run (Except Fault α) :=
  ExceptT.mk do return .ok (← run.run)

/-- A serial number that was not used before. -/
def fresh : Run Nat := do
  let serial := (← get).serial
  modify fun world => { world with serial := serial + 1 }
  return serial

/-- Reports a success. -/
def notify (notice : Notice) : Run Unit :=
  modify fun world => { world with notices := world.notices.push notice }

/-- Makes a node. -/
def newNode (label val position : Value) : Run NodeId := do
  let id := (← get).forest.size
  modify fun world =>
    { world with forest := world.forest.add (.fresh id label val position) }
  return id

/-- What a node is made of. -/
def cell (id : NodeId) : Run NodeCell := do return (← get).cell id

/-- Changes a node. -/
def changeCell (id : NodeId) (change : NodeCell → NodeCell) : Run Unit :=
  modify fun world => world.changeCell id change

/-- Makes a host. -/
def newHost (host : HostId → Host) : Run HostId := do
  let id := (← get).hosts.size
  modify fun world => world.addHost (host id)
  return id

/-- A host. -/
def host (id : HostId) : Run Host := do return (← get).host id

/-- Changes a host. -/
def changeHost (id : HostId) (change : Host → Host) : Run Unit :=
  modify fun world => world.changeHost id change

/-- Makes a list. -/
def newList (items : Array Value) : Run Value := do
  let number := (← get).lists.size
  modify fun world => { world with lists := world.lists.push items }
  return .list (.made number)

/-- Makes a list of open nodes. -/
def newStack (items : Array Value) : Run Value := do
  let number := (← get).openStacks.size
  modify fun world => { world with openStacks := world.openStacks.push items }
  return .list (.stack number)

/-- Makes a record. -/
def newRecord (record : Record) : Run Value := do
  let number := (← get).records.size
  modify fun world => { world with records := world.records.push record }
  return .record (.made number)

/-- What is in a list. -/
def items (ref : ListRef) : Run (Array Value) := do return (← get).items ref

/-- Changes what is in a list. -/
def changeItems (ref : ListRef) (change : Array Value → Array Value) : Run Unit :=
  modify fun world => world.changeItems ref change

/-- What is in a record. -/
def record (ref : RecordRef) : Run Record := do return (← get).record ref

/-- Changes what is in a record. -/
def changeRecord (ref : RecordRef) (change : Record → Record) : Run Unit :=
  modify fun world => world.changeRecord ref change

/-! ## Outcomes of the primitives -/

section Outcome

variable {α β : Type}

@[simp] theorem outcome_pure (result : α) (world : World) :
    (pure result : Run α).outcome world = (.ok result, world) := rfl

/-- A run goes on from the world that its first part leaves behind, unless that fails. -/
theorem outcome_bind (first : Run α) (next : α → Run β) (world : World) :
    (first >>= next).outcome world =
      match first.outcome world with
      | (.ok result, after) => (next result).outcome after
      | (.error fault, after) => (.error fault, after) := by
  simp only [outcome, ExceptT.run_bind, StateT.run_bind]
  cases h : StateT.run (ExceptT.run first) world with
  | mk result after => cases result <;> rfl

@[simp] theorem outcome_fail (fault : Fault) (world : World) :
    (fail fault : Run α).outcome world = (.error fault, world) := rfl

@[simp] theorem outcome_get (world : World) :
    (get : Run World).outcome world = (.ok world, world) := rfl

@[simp] theorem outcome_modify (change : World → World) (world : World) :
    (modify change : Run PUnit).outcome world = (.ok ⟨⟩, change world) := rfl

/-- Observing a run never fails and changes what the run changes. -/
theorem outcome_observe (run : Run α) (world : World) :
    run.observe.outcome world = (.ok (run.outcome world).1, (run.outcome world).2) := rfl

@[simp] theorem outcome_fresh (world : World) :
    fresh.outcome world = (.ok world.serial, { world with serial := world.serial + 1 }) := rfl

@[simp] theorem outcome_notify (notice : Notice) (world : World) :
    (notify notice).outcome world =
      (.ok (), { world with notices := world.notices.push notice }) := rfl

@[simp] theorem outcome_newNode (label val position : Value) (world : World) :
    (newNode label val position).outcome world =
      (.ok world.forest.size,
        { world with
          forest := world.forest.add (.fresh world.forest.size label val position) }) := rfl

@[simp] theorem outcome_cell (id : NodeId) (world : World) :
    (cell id).outcome world = (.ok (world.cell id), world) := rfl

@[simp] theorem outcome_changeCell (id : NodeId) (change : NodeCell → NodeCell) (world : World) :
    (changeCell id change).outcome world = (.ok (), world.changeCell id change) := rfl

@[simp] theorem outcome_newHost (host : HostId → Host) (world : World) :
    (newHost host).outcome world =
      (.ok world.hosts.size, world.addHost (host world.hosts.size)) := rfl

@[simp] theorem outcome_host (id : HostId) (world : World) :
    (host id).outcome world = (.ok (world.host id), world) := rfl

@[simp] theorem outcome_changeHost (id : HostId) (change : Host → Host) (world : World) :
    (changeHost id change).outcome world = (.ok (), world.changeHost id change) := rfl

@[simp] theorem outcome_newList (items : Array Value) (world : World) :
    (newList items).outcome world =
      (.ok (.list (.made world.lists.size)), { world with lists := world.lists.push items }) := rfl

@[simp] theorem outcome_newStack (items : Array Value) (world : World) :
    (newStack items).outcome world =
      (.ok (.list (.stack world.openStacks.size)),
        { world with openStacks := world.openStacks.push items }) := rfl

@[simp] theorem outcome_newRecord (record : Record) (world : World) :
    (newRecord record).outcome world =
      (.ok (.record (.made world.records.size)),
        { world with records := world.records.push record }) := rfl

@[simp] theorem outcome_items (ref : ListRef) (world : World) :
    (items ref).outcome world = (.ok (world.items ref), world) := rfl

@[simp] theorem outcome_changeItems (ref : ListRef) (change : Array Value → Array Value)
    (world : World) :
    (changeItems ref change).outcome world = (.ok (), world.changeItems ref change) := rfl

@[simp] theorem outcome_record (ref : RecordRef) (world : World) :
    (record ref).outcome world = (.ok (world.record ref), world) := rfl

@[simp] theorem outcome_changeRecord (ref : RecordRef) (change : Record → Record) (world : World) :
    (changeRecord ref change).outcome world = (.ok (), world.changeRecord ref change) := rfl

end Outcome

/-! ## What is built from them -/

/-- Fails because a value has no such attribute to be read. -/
def lacks {α : Type} (value : Value) (name : String) : Run α := do
  fail (.noAttribute ((← get).readClassName value) name)

/-- A value as it is spelled inside messages. -/
def spell (value : Value) : Run String := do return (← get).spell value

/-- A value as it stands in running text. -/
def plainText (value : Value) : Run String := do return (← get).plainText value

/-- Whether a value counts as set. -/
def isSet (value : Value) : Run Bool := do return (← get).isSet value

/-- Whether two values are equal. -/
def equal (first second : Value) : Run Bool := do
  match (← get).equal? first second with
  | some verdict => return verdict
  | none => fail .endless

/-- A location with the reading of a cursor. -/
def locationOf (cursor : Cursor) : Run Value := do return .ofCursor (← fresh) cursor

/-! ## Data as values -/

mutual

/-- Makes a datum a value, with a list or a record of its own for each in it. -/
def valueOf : Datum → Run Value
  | .null => return .null
  | .bool value => return .bool value
  | .int value => return .int value
  | .decimal value => return .decimal value
  | .text value => return .text value
  | .list items => do newList (← valuesOf items).toArray
  | .record fields => do
    let values ← fieldsOf fields
    newRecord <| values.foldl (fun record field =>
      record.write (.text field.1) (.text field.1) field.2) .empty

/-- Makes the items of a list values. -/
def valuesOf : List Datum → Run (List Value)
  | [] => return []
  | item :: rest => do
    let value ← valueOf item
    return value :: (← valuesOf rest)

/-- Makes the fields of a record values. -/
def fieldsOf : List (String × Datum) → Run (List (String × Value))
  | [] => return []
  | (name, field) :: rest => do
    let value ← valueOf field
    return (name, value) :: (← fieldsOf rest)

end

end Run

end Rulebook
