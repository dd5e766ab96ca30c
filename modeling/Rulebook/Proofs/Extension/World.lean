import Rulebook.World.Equality
import Rulebook.World.Spelling
import Rulebook.Proofs.History

/-!
# Tables of rules with more in them

A parser refers to its tables of rules and patterns by itself, and a value ignores them if it does
not. Where nothing in a world refers to the tables of a parser but the parser itself, there may be
more rules in the one and anything in the other: all questions about values that ignore the tables
have the same answers, and what changes the rest of the world changes it in the same way.
-/

namespace Rulebook

/-! ## Values that ignore the tables of a parser -/

/-- A value refers neither to the table of rules that a parser was made with nor to that of its
patterns. -/
def Value.Ignores (id : HostId) : Value → Prop
  | .record ref => ref ≠ .rules id ∧ ref ≠ .patterns id
  | .location _ line column offset => line.Ignores id ∧ column.Ignores id ∧ offset.Ignores id
  | .span _ start stop => start.Ignores id ∧ stop.Ignores id
  | .patternRule _ _ label matcher => label.Ignores id ∧ matcher.Ignores id
  | .stamp _ _ start => start.Ignores id
  | .bound _ _ callable => callable.Ignores id
  | .method _ receiver _ => receiver.Ignores id
  | _ => True

namespace Value.Ignores

variable {id : HostId}

theorem null : Value.null.Ignores id := trivial

theorem int (value : Int) : (Value.int value).Ignores id := trivial

theorem text (value : String) : (Value.text value).Ignores id := trivial

theorem node (number : NodeId) : (Value.node number).Ignores id := trivial

theorem host (number : HostId) : (Value.host number).Ignores id := trivial

theorem pattern (value : Pattern) : (Value.pattern value).Ignores id := trivial

theorem options (number : HostId) : (Value.record (.options number)).Ignores id :=
  ⟨by simp, by simp⟩

theorem notes (number : NodeId) : (Value.record (.notes number)).Ignores id := ⟨by simp, by simp⟩

theorem captureRule : Value.captureRule.Ignores id := trivial

theorem forward : Value.forward.Ignores id := trivial

/-- The one value that there is ignores the tables. -/
theorem some {value : Value} (hvalue : value.Ignores id) :
    ∀ other ∈ Option.some value, other.Ignores id := by
  intro other hother
  cases hother
  exact hvalue

end Value.Ignores

/-- Values all of which ignore the tables of a parser. -/
def AllIgnore (id : HostId) (values : List Value) : Prop := ∀ value ∈ values, value.Ignores id

theorem AllIgnore.nil {id : HostId} : AllIgnore id [] := nofun

theorem AllIgnore.cons {id : HostId} {value : Value} {values : List Value}
    (hvalue : value.Ignores id) (hvalues : AllIgnore id values) : AllIgnore id (value :: values) :=
  List.forall_mem_cons.mpr ⟨hvalue, hvalues⟩

theorem allIgnore_cons {id : HostId} {value : Value} {values : List Value} :
    AllIgnore id (value :: values) ↔ value.Ignores id ∧ AllIgnore id values :=
  List.forall_mem_cons

/-- A value that may stand under a name: the parser itself has its two tables under theirs. -/
def Value.HeldUnder (id : HostId) (name : String) (value : Value) : Prop :=
  value.Ignores id ∨ name = "rules" ∧ value = .record (.rules id) ∨
    name = "regex" ∧ value = .record (.patterns id)

/-- A condition holds of all entries of a table. -/
def Table.All {κ α : Type} (holds : α → Prop) (table : Table κ α) : Prop :=
  ∀ entry ∈ table.entries, holds entry.2

/-- Fields whose values all ignore the tables of a parser. -/
def FieldsIgnore (id : HostId) (fields : Table String Value) : Prop :=
  fields.All (Value.Ignores id)

/-- Neither name nor value of an entry refers to the tables of a parser. -/
structure Entry.Ignores (id : HostId) (entry : Entry) : Prop where
  name : entry.name.Ignores id
  value : entry.value.Ignores id

/-- A record in whose entries nothing refers to the tables of a parser. -/
def Record.Ignores (id : HostId) (record : Record) : Prop := record.All (Entry.Ignores id)

/-- Nothing in a node refers to the tables of a parser. -/
structure NodeCell.Ignores (id : HostId) (cell : NodeCell) : Prop where
  label : cell.label.Ignores id
  val : cell.val.Ignores id
  position : cell.position.Ignores id
  children : cell.children.Ignores id
  parent : cell.parent.Ignores id
  notes : cell.notes.Ignores id
  ownChildren : AllIgnore id cell.ownChildren.toList
  ownNotes : cell.ownNotes.Ignores id
  extras : FieldsIgnore id cell.extras

/-- Nothing in the host under a number refers to the tables of a parser, but for the parser itself
that has them in their places. What is in its table of patterns does not matter. -/
structure Host.Ignores (id number : HostId) (host : Host) : Prop where
  options : ∀ value ∈ host.options, value.Ignores id
  nested : ∀ value ∈ host.nested, value.Ignores id
  rules : ∀ value ∈ host.rules, value.Ignores id ∨ number = id ∧ value = .record (.rules id)
  patterns : ∀ value ∈ host.patterns, value.HeldUnder id "regex"
  input : ∀ value ∈ host.input, value.Ignores id
  root : ∀ value ∈ host.root, value.Ignores id
  stack : ∀ value ∈ host.stack, value.Ignores id
  ownOptions : host.ownOptions.Ignores id
  ownRules : host.ownRules.Ignores id
  ownPatterns : number ≠ id → host.ownPatterns.Ignores id
  members : FieldsIgnore id host.members

/-- Nothing in a world refers to the tables of a parser but the parser itself. -/
structure World.Ignores (world : World) (id : HostId) : Prop where
  cell : ∀ node, (world.cell node).Ignores id
  host : ∀ number, (world.host number).Ignores id number
  openStacks : ∀ number, AllIgnore id (world.openStacks.getD number #[]).toList
  lists : ∀ number, AllIgnore id (world.lists.getD number #[]).toList
  records : ∀ number, (world.records.getD number default).Ignores id
  extras : world.extras.All (FieldsIgnore id)
  globals : FieldsIgnore id world.globals
  frame : FieldsIgnore id world.frame

/-! ## Tables -/

namespace Table.All

variable {κ α : Type} {holds : α → Prop} {table : Table κ α}

theorem empty : Table.All holds (Table.empty : Table κ α) := nofun

theorem values (hall : Table.All holds table) : ∀ entry ∈ table.values, holds entry :=
  List.forall_mem_map.mpr hall

variable [DecidableEq κ]

theorem get? (hall : Table.All holds table) {key : κ} {entry : α}
    (hget : table.get? key = some entry) : holds entry :=
  hall _ (Table.mem_of_get? hget)

theorem mem_insertEntry {key : κ} {entry : α} {entries : List (κ × α)} {other : κ × α}
    (hother : other ∈ insertEntry key entry entries) : other = (key, entry) ∨ other ∈ entries := by
  induction entries with
  | nil => exact .inl (List.mem_singleton.mp hother)
  | cons head rest ih =>
      rw [insertEntry] at hother
      split at hother
      next =>
        rcases List.mem_cons.mp hother with hnew | hrest
        · exact .inl hnew
        · exact .inr (List.mem_cons_of_mem _ hrest)
      next =>
        rcases List.mem_cons.mp hother with rfl | hrest
        · exact .inr List.mem_cons_self
        · exact (ih hrest).imp_right (List.mem_cons_of_mem _)

theorem insert (hall : Table.All holds table) (key : κ) {entry : α} (hentry : holds entry) :
    Table.All holds (table.insert key entry) := by
  intro other hother
  rcases mem_insertEntry hother with rfl | hold
  · exact hentry
  · exact hall other hold

end Table.All

variable {id number : HostId} {value name : Value}

theorem Record.Ignores.write {record : Record} (hrecord : record.Ignores id) (key : Key)
    (hname : name.Ignores id) (hvalue : value.Ignores id) :
    (record.write key name value).Ignores id := by
  refine hrecord.insert key ⟨?_, hvalue⟩
  cases hentry : record.get? key with
  | none => exact hname
  | some entry => exact (hrecord.get? hentry).name

/-! ## Nodes and hosts -/

theorem Value.Ignores.heldUnder (hvalue : value.Ignores id) (name : String) :
    value.HeldUnder id name := .inl hvalue

/-- Only the names of the tables have something under them that does not ignore the tables. -/
theorem Value.HeldUnder.ignores {name : String} (hheld : value.HeldUnder id name)
    (hrules : name ≠ "rules") (hregex : name ≠ "regex") : value.Ignores id := by
  rcases hheld with hvalue | ⟨hname, _⟩ | ⟨hname, _⟩
  · exact hvalue
  · exact absurd hname hrules
  · exact absurd hname hregex

namespace NodeCell.Ignores

variable {cell : NodeCell} {name : String}

theorem fresh (node : NodeId) {label val position : Value} (hlabel : label.Ignores id)
    (hval : val.Ignores id) (hposition : position.Ignores id) :
    (NodeCell.fresh node label val position).Ignores id where
  label := hlabel
  val := hval
  position := hposition
  children := trivial
  parent := trivial
  notes := .notes node
  ownChildren := .nil
  ownNotes := .empty
  extras := .empty

theorem attribute? (hcell : cell.Ignores id) (hattribute : cell.attribute? name = some value) :
    value.Ignores id := by
  unfold NodeCell.attribute? at hattribute
  split at hattribute
  next => cases hattribute; exact hcell.label
  next => cases hattribute; exact hcell.val
  next => cases hattribute; exact hcell.position
  next => cases hattribute; exact hcell.children
  next => cases hattribute; exact hcell.parent
  next => cases hattribute; exact hcell.notes
  next => exact hcell.extras.get? hattribute

theorem setAttribute (hcell : cell.Ignores id) (name : String) (hvalue : value.Ignores id) :
    (cell.setAttribute name value).Ignores id := by
  unfold NodeCell.setAttribute
  split
  next => exact { hcell with label := hvalue }
  next => exact { hcell with val := hvalue }
  next => exact { hcell with position := hvalue }
  next => exact { hcell with children := hvalue }
  next => exact { hcell with parent := hvalue }
  next => exact { hcell with notes := hvalue }
  next => exact { hcell with extras := hcell.extras.insert name hvalue }

/-- What nodes are compared by ignores the tables. -/
theorem shown (hcell : cell.Ignores id) :
    AllIgnore id [cell.label, cell.val, cell.position, cell.children] :=
  .cons hcell.label (.cons hcell.val (.cons hcell.position (.cons hcell.children .nil)))

end NodeCell.Ignores

namespace Host.Ignores

variable {host : Host} {name : String}

theorem bare (hostClass : HostClass) : (Host.bare hostClass).Ignores id number where
  options := nofun
  nested := nofun
  rules := nofun
  patterns := nofun
  input := nofun
  root := nofun
  stack := nofun
  ownOptions := .empty
  ownRules := .empty
  ownPatterns _ := .empty
  members := .empty

theorem attribute? (hhost : host.Ignores id number)
    (hattribute : host.attribute? name = some value) : value.HeldUnder id name := by
  unfold Host.attribute? at hattribute
  split at hattribute
  next => exact .inl (hhost.options _ hattribute)
  next => exact .inl (hhost.nested _ hattribute)
  next => exact (hhost.rules _ hattribute).imp_right fun hrules => .inl ⟨rfl, hrules.2⟩
  next => exact hhost.patterns _ hattribute
  next => exact .inl (hhost.input _ hattribute)
  next => exact .inl (hhost.root _ hattribute)
  next => exact .inl (hhost.stack _ hattribute)
  iterate 3
    next =>
      obtain ⟨cursor, _, rfl⟩ := Option.map_eq_some_iff.mp hattribute
      exact .inl trivial
  next => exact .inl (hhost.members.get? hattribute)

theorem setAttribute (hhost : host.Ignores id number) (name : String) (hvalue : value.Ignores id) :
    (host.setAttribute name value).Ignores id number := by
  unfold Host.setAttribute
  split
  next => exact { hhost with options := hvalue.some }
  next => exact { hhost with nested := hvalue.some }
  next => exact { hhost with rules := fun other hother => .inl (hvalue.some other hother) }
  next => exact { hhost with patterns := fun other hother => .inl (hvalue.some other hother) }
  next => exact { hhost with input := hvalue.some }
  next => exact { hhost with root := hvalue.some }
  next => exact { hhost with stack := hvalue.some }
  next => exact { hhost with members := hhost.members.insert name hvalue }

end Host.Ignores

/-! ## Worlds -/

namespace World.Ignores

variable {world : World} (hworld : world.Ignores id)

include hworld

theorem items (ref : ListRef) : AllIgnore id (world.items ref).toList := by
  cases ref with
  | children node => exact (hworld.cell node).ownChildren
  | stack number => exact hworld.openStacks number
  | made number => exact hworld.lists number

theorem record {ref : RecordRef} (href : ref ≠ .patterns id) : (world.record ref).Ignores id := by
  cases ref with
  | notes node => exact (hworld.cell node).ownNotes
  | options number => exact (hworld.host number).ownOptions
  | rules number => exact (hworld.host number).ownRules
  | patterns number => exact (hworld.host number).ownPatterns fun heq => href (heq ▸ rfl)
  | made number => exact hworld.records number

theorem addCell {cell : NodeCell} (hcell : cell.Ignores id) :
    ({ world with forest := world.forest.add cell } : World).Ignores id :=
  { hworld with
    cell := fun node => by
      rw [World.cell, Forest.cell_add]
      split
      next => exact hcell
      next => exact hworld.cell node }

theorem changeCell (node : NodeId) {change : NodeCell → NodeCell}
    (hchange : ∀ {cell : NodeCell}, cell.Ignores id → (change cell).Ignores id) :
    (world.changeCell node change).Ignores id :=
  { hworld with
    cell := fun other => by
      rw [World.cell, World.changeCell, Forest.cell_modify]
      split
      next => exact hchange (hworld.cell other)
      next => exact hworld.cell other }

theorem addHost {host : Host} (hhost : host.Ignores id world.hosts.size) :
    (world.addHost host).Ignores id :=
  { hworld with
    host := fun number => by
      rw [World.host_addHost]
      split
      next heq => exact heq ▸ hhost
      next => exact hworld.host number }

theorem changeHost (number : HostId) {change : Host → Host}
    (hchange : ∀ {host : Host}, host.Ignores id number → (change host).Ignores id number) :
    (world.changeHost number change).Ignores id :=
  { hworld with
    host := fun other => by
      rw [World.host_changeHost]
      split
      next heq => exact heq.1 ▸ hchange (heq.1 ▸ hworld.host other)
      next => exact hworld.host other }

end World.Ignores

/-! ### Changes of the rest -/

namespace World.Ignores

variable {world : World} (hworld : world.Ignores id)

include hworld

theorem changeItems (ref : ListRef) {change : Array Value → Array Value}
    (hchange : ∀ {items : Array Value}, AllIgnore id items.toList →
      AllIgnore id (change items).toList) : (world.changeItems ref change).Ignores id := by
  cases ref with
  | children node =>
      exact hworld.changeCell node fun hcell =>
        { hcell with ownChildren := hchange hcell.ownChildren }
  | stack number =>
      refine { hworld with openStacks := fun other => ?_ }
      simp only [World.changeItems, getD_modify]
      split
      next => exact hchange (hworld.openStacks other)
      next => exact hworld.openStacks other
  | made number =>
      refine { hworld with lists := fun other => ?_ }
      simp only [World.changeItems, getD_modify]
      split
      next => exact hchange (hworld.lists other)
      next => exact hworld.lists other

/-- What is done to the table of patterns does not matter. -/
theorem changeRecord (ref : RecordRef) {change : Record → Record}
    (hchange : ref ≠ .patterns id → ∀ {record : Record}, record.Ignores id →
      Record.Ignores id (change record)) : (world.changeRecord ref change).Ignores id := by
  cases ref with
  | notes node =>
      exact hworld.changeCell node fun hcell =>
        { hcell with ownNotes := hchange (by simp) hcell.ownNotes }
  | options number =>
      exact hworld.changeHost number fun hhost =>
        { hhost with ownOptions := hchange (by simp) hhost.ownOptions }
  | rules number =>
      exact hworld.changeHost number fun hhost =>
        { hhost with ownRules := hchange (by simp) hhost.ownRules }
  | patterns number =>
      refine hworld.changeHost number fun hhost => { hhost with ownPatterns := fun hother => ?_ }
      refine hchange (fun heq => hother ?_) (hhost.ownPatterns hother)
      exact RecordRef.patterns.inj heq
  | made number =>
      refine { hworld with records := fun other => ?_ }
      simp only [World.changeRecord, getD_modify]
      split
      next => exact hchange (by simp) (hworld.records other)
      next => exact hworld.records other

theorem addList {items : Array Value} (hitems : AllIgnore id items.toList) :
    ({ world with lists := world.lists.push items } : World).Ignores id := by
  refine { hworld with lists := fun number => ?_ }
  rw [getD_push]
  split
  next => exact hitems
  next => exact hworld.lists number

theorem addStack {items : Array Value} (hitems : AllIgnore id items.toList) :
    ({ world with openStacks := world.openStacks.push items } : World).Ignores id := by
  refine { hworld with openStacks := fun number => ?_ }
  rw [getD_push]
  split
  next => exact hitems
  next => exact hworld.openStacks number

theorem addRecord {record : Record} (hrecord : record.Ignores id) :
    ({ world with records := world.records.push record } : World).Ignores id := by
  refine { hworld with records := fun number => ?_ }
  rw [getD_push]
  split
  next => exact hrecord
  next => exact hworld.records number

end World.Ignores

/-! ## More rules in a table -/

/-- A parser, the rules in its table, and more that come after them. -/
structure Extension where
  id : HostId
  rules : Record
  more : List (Key × Entry)

namespace Extension

variable {ext : Extension}

/-- The table with the rules that are added. -/
def wide (ext : Extension) : Record := ⟨ext.rules.entries ++ ext.more⟩

/-- The world with the rules added, with other patterns in the table of these, and after other
notices. -/
def widen (ext : Extension) (patterns : Record) (notices : Array Notice) (world : World) : World :=
  { world.withTables ext.id ext.wide patterns with notices }

/-- A world to which rules can be added: the parser is there with its rules, and nothing else refers
to its tables. -/
structure Fits (ext : Extension) (world : World) : Prop where
  ignores : world.Ignores ext.id
  present : ext.id < world.hosts.size
  rules : (world.host ext.id).ownRules = ext.rules

/-- A world and one in which the rules are added. -/
structure Beside (ext : Extension) (world world' : World) : Prop where
  fits : ext.Fits world
  widened : ∃ patterns notices, world' = ext.widen patterns notices world

section Widen

variable {world : World} (patterns : Record) (notices : Array Notice)

/-- Hosts keep everything but what is in their tables. -/
theorem exists_host_widen (ext : Extension) (world : World) (number : HostId) :
    ∃ ownRules ownPatterns, (ext.widen patterns notices world).host number =
      { world.host number with ownRules, ownPatterns } := by
  change ∃ ownRules ownPatterns, (world.withTables ext.id ext.wide patterns).host number = _
  rw [World.withTables, World.host_changeHost]
  split
  next => exact ⟨_, _, rfl⟩
  next => exact ⟨_, _, rfl⟩

theorem host_widen_other (number : HostId) (hother : number ≠ ext.id) :
    (ext.widen patterns notices world).host number = world.host number := by
  change (world.withTables ext.id ext.wide patterns).host number = _
  rw [World.withTables, World.host_changeHost, if_neg fun heq => hother heq.1.symm]

theorem host_widen_self (hpresent : ext.id < world.hosts.size) :
    (ext.widen patterns notices world).host ext.id =
      { world.host ext.id with ownRules := ext.wide, ownPatterns := patterns } := by
  change (world.withTables ext.id ext.wide patterns).host ext.id = _
  rw [World.withTables, World.host_changeHost, if_pos ⟨rfl, hpresent⟩]

theorem size_widen : (ext.widen patterns notices world).hosts.size = world.hosts.size :=
  Array.size_modify

theorem extras_widen : (ext.widen patterns notices world).extras = world.extras := rfl

theorem globals_widen : (ext.widen patterns notices world).globals = world.globals := rfl

theorem frame_widen : (ext.widen patterns notices world).frame = world.frame := rfl

theorem items_widen (ref : ListRef) :
    (ext.widen patterns notices world).items ref = world.items ref := by
  cases ref <;> rfl

/-- Only the two tables are different. -/
theorem record_widen {ref : RecordRef} (hrules : ref ≠ .rules ext.id)
    (hpatterns : ref ≠ .patterns ext.id) :
    (ext.widen patterns notices world).record ref = world.record ref := by
  cases ref with
  | notes | made => rfl
  | options number =>
      obtain ⟨_, _, hhost⟩ := ext.exists_host_widen patterns notices world number
      simp only [World.record, hhost]
  | rules number =>
      have hother : number ≠ ext.id := fun heq => hrules (heq ▸ rfl)
      simp only [World.record, host_widen_other patterns notices number hother]
  | patterns number =>
      have hother : number ≠ ext.id := fun heq => hpatterns (heq ▸ rfl)
      simp only [World.record, host_widen_other patterns notices number hother]

theorem record_widen_rules (hpresent : ext.id < world.hosts.size) :
    (ext.widen patterns notices world).record (.rules ext.id) = ext.wide := by
  rw [World.record, host_widen_self patterns notices hpresent]

/-! ### Questions about values -/

theorem className_widen (value : Value) :
    (ext.widen patterns notices world).className value = world.className value := by
  cases value with
  | host number =>
      obtain ⟨_, _, hhost⟩ := ext.exists_host_widen patterns notices world number
      simp only [World.className, hhost]
  | method _ receiver => cases receiver <;> rfl
  | _ => rfl

theorem fullClassName_widen (value : Value) :
    (ext.widen patterns notices world).fullClassName value = world.fullClassName value := by
  have hname := @className_widen ext world patterns notices value
  cases value with
  | found | pattern => rfl
  | _ => exact hname

theorem readClassName_widen (value : Value) :
    (ext.widen patterns notices world).readClassName value = world.readClassName value := by
  induction value with
  | bound _ _ _ ih => exact ih
  | method serial receiver name =>
      cases receiver with
      | node | host => rfl
      | _ => exact fullClassName_widen patterns notices _
  | host number => exact fullClassName_widen patterns notices _
  | _ => rfl

theorem kindsOf_widen (value : Value) :
    (ext.widen patterns notices world).kindsOf value = world.kindsOf value := by
  cases value with
  | host number =>
      obtain ⟨_, _, hhost⟩ := ext.exists_host_widen patterns notices world number
      simp only [World.kindsOf, hhost]
  | _ => rfl

theorem extent_widen : (ext.widen patterns notices world).extent = world.extent := by
  simp only [World.extent, size_widen]
  rfl

theorem isSet_widen (hvalue : value.Ignores ext.id) :
    (ext.widen patterns notices world).isSet value = world.isSet value := by
  cases value with
  | list ref => simp only [World.isSet, items_widen]
  | record ref =>
      obtain ⟨hrules, hpatterns⟩ := hvalue
      simp only [World.isSet, record_widen patterns notices hrules hpatterns]
  | _ => rfl

theorem spellWithin_widen (hworld : world.Ignores ext.id) (fuel : Nat) (path : List Value)
    (hvalue : value.Ignores ext.id) :
    (ext.widen patterns notices world).spellWithin fuel path value =
      world.spellWithin fuel path value := by
  induction fuel generalizing path value with
  | zero => rfl
  | succ fuel ih =>
      have hinner : ∀ {one : Value}, one.Ignores ext.id →
          (ext.widen patterns notices world).spellWithin fuel (value :: path) one =
            world.spellWithin fuel (value :: path) one := fun hone => ih _ hone
      cases value with
      | list ref =>
          simp only [World.spellWithin_items, items_widen,
            List.map_congr_left fun one hone => hinner (hworld.items ref one hone)]
      | record ref =>
          obtain ⟨hrules, hpatterns⟩ := hvalue
          have hentries := (hworld.record hpatterns).values
          simp only [World.spellWithin_record, record_widen patterns notices hrules hpatterns]
          rw [List.map_congr_left fun entry hentry => congrArg₂ (fun one two => one ++ ": " ++ two)
            (hinner (hentries entry hentry).name) (hinner (hentries entry hentry).value)]
      | location _ line column offset =>
          obtain ⟨hline, hcolumn, hoffset⟩ := hvalue
          simp only [World.spellWithin_location, hinner hline, hinner hcolumn, hinner hoffset]
      | span _ start stop =>
          obtain ⟨hstart, hstop⟩ := hvalue
          simp only [World.spellWithin_span, hinner hstart, hinner hstop]
      | node node =>
          have hcell := hworld.cell node
          have hsame : (ext.widen patterns notices world).cell node = world.cell node := rfl
          simp only [World.spellWithin_node, hsame, hinner hcell.label, hinner hcell.val,
            hinner hcell.position, hinner hcell.children]
      | host number =>
          obtain ⟨_, _, hhost⟩ := ext.exists_host_widen patterns notices world number
          simp only [World.spellWithin_host, hhost]
      | kind kind => cases kind <;> rfl
      | _ => rfl

theorem spell_widen (hworld : world.Ignores ext.id) (hvalue : value.Ignores ext.id) :
    (ext.widen patterns notices world).spell value = world.spell value := by
  rw [World.spell, World.spell, extent_widen]
  exact spellWithin_widen patterns notices hworld _ [] hvalue

theorem plainText_widen (hworld : world.Ignores ext.id) (hvalue : value.Ignores ext.id) :
    (ext.widen patterns notices world).plainText value = world.plainText value := by
  have hspell := spell_widen patterns notices hworld hvalue
  cases value with
  | text => rfl
  | kind kind => cases kind <;> rfl
  | _ => exact hspell

theorem fieldName_widen (hworld : world.Ignores ext.id) (hvalue : value.Ignores ext.id) :
    fieldName (ext.widen patterns notices world) value = fieldName world value := by
  have hname := plainText_widen patterns notices hworld hvalue
  cases value with
  | null | bool => rfl
  | _ => exact hname

/-! ### Equality -/

/-- Lists whose items compare alike do so themselves. -/
theorem equalItems_congr {equal equal' : Value → Value → Option Bool} {ones twos : List Value}
    (hones : AllIgnore id ones) (htwos : AllIgnore id twos)
    (hequal : ∀ {one two : Value}, one.Ignores id → two.Ignores id →
      equal one two = equal' one two) :
    World.equalItems equal ones twos = World.equalItems equal' ones twos := by
  have hlists : World.equalLists equal ones twos = World.equalLists equal' ones twos := by
    induction ones generalizing twos with
    | nil => cases twos <;> rfl
    | cons one rest ih =>
        obtain ⟨hone, hrest⟩ := List.forall_mem_cons.mp hones
        cases twos with
        | nil => rfl
        | cons two more =>
            obtain ⟨htwo, hmore⟩ := List.forall_mem_cons.mp htwos
            simp only [World.equalLists, hequal hone htwo, ih hrest hmore]
  rw [World.equalItems, World.equalItems, hlists]

theorem equalEntries_congr {equal equal' : Value → Value → Option Bool} {record : Record}
    {entries : List (Key × Entry)} (hrecord : record.Ignores id)
    (hentries : ∀ entry ∈ entries, entry.2.Ignores id)
    (hequal : ∀ {one two : Value}, one.Ignores id → two.Ignores id →
      equal one two = equal' one two) :
    World.equalEntries equal record entries = World.equalEntries equal' record entries := by
  induction entries with
  | nil => rfl
  | cons entry rest ih =>
      obtain ⟨hentry, hrest⟩ := List.forall_mem_cons.mp hentries
      simp only [World.equalEntries]
      cases hfound : record.get? entry.1 with
      | none => rfl
      | some other =>
          simp only [hequal hentry.value (hrecord.get? hfound).value, ih hrest]

theorem equalWithin_widen (hworld : world.Ignores ext.id) (fuel : Nat)
    (path : List (Value × Value)) {other : Value} (hvalue : value.Ignores ext.id)
    (hother : other.Ignores ext.id) :
    (ext.widen patterns notices world).equalWithin fuel path value other =
      world.equalWithin fuel path value other := by
  induction fuel generalizing path value other with
  | zero => rfl
  | succ fuel ih =>
      have hinner : ∀ {one two : Value}, one.Ignores ext.id → two.Ignores ext.id →
          (ext.widen patterns notices world).equalWithin fuel ((value, other) :: path) one two =
            world.equalWithin fuel ((value, other) :: path) one two :=
        fun hone htwo => ih _ hone htwo
      unfold World.equalWithin
      dsimp only
      -- whether values are the same or were met before does not depend on the world
      refine if_congr Iff.rfl rfl (if_congr Iff.rfl rfl ?_)
      split
      next one two =>
        simp only [items_widen]
        exact equalItems_congr (hworld.items one) (hworld.items two) hinner
      next one two =>
        simp only [record_widen patterns notices hvalue.1 hvalue.2,
          record_widen patterns notices hother.1 hother.2]
        exact if_congr Iff.rfl (equalEntries_congr (hworld.record hother.2)
          (hworld.record hvalue.2) hinner) rfl
      next =>
        obtain ⟨hline, hcolumn, hoffset⟩ := hvalue
        obtain ⟨hline', hcolumn', hoffset'⟩ := hother
        exact equalItems_congr (.cons hline (.cons hcolumn (.cons hoffset .nil)))
          (.cons hline' (.cons hcolumn' (.cons hoffset' .nil))) hinner
      next =>
        obtain ⟨hstart, hstop⟩ := hvalue
        obtain ⟨hstart', hstop'⟩ := hother
        exact equalItems_congr (.cons hstart (.cons hstop .nil))
          (.cons hstart' (.cons hstop' .nil)) hinner
      next one two => exact equalItems_congr (hworld.cell one).shown (hworld.cell two).shown hinner
      next => rfl
      next => exact if_congr Iff.rfl (hinner hvalue hother) rfl
      next => rfl
      next => rfl

theorem equal?_widen (hworld : world.Ignores ext.id) {other : Value}
    (hvalue : value.Ignores ext.id) (hother : other.Ignores ext.id) :
    (ext.widen patterns notices world).equal? value other = world.equal? value other := by
  rw [World.equal?, World.equal?, extent_widen]
  exact equalWithin_widen patterns notices hworld _ [] hvalue hother

/-! ### Changes of hosts and tables -/

theorem modify_comm {α : Type} {values : Array α} {place other : Nat} {change change' : α → α}
    (hchanges : place = other → ∀ value, change' (change value) = change (change' value)) :
    (values.modify place change).modify other change' =
      (values.modify other change').modify place change := by
  refine Array.ext (by simp only [Array.size_modify]) fun index _ _ => ?_
  simp only [Array.getElem_modify]
  by_cases hplace : place = index <;> by_cases hother : other = index
  · simp only [if_pos hplace, if_pos hother]
    exact hchanges (hplace.trans hother.symm) _
  all_goals simp only [hplace, hother, if_true, if_false]

/-- A host changes in the same way with more rules. -/
theorem widen_changeHost (number : HostId) {change : Host → Host}
    (hchange : number = ext.id → ∀ host ownRules ownPatterns,
      change { host with ownRules, ownPatterns } = { change host with ownRules, ownPatterns }) :
    ext.widen patterns notices (world.changeHost number change) =
      (ext.widen patterns notices world).changeHost number change := by
  have hhosts : ((world.changeHost number change).withTables ext.id ext.wide patterns).hosts =
      ((world.withTables ext.id ext.wide patterns).changeHost number change).hosts := by
    simp only [World.withTables, World.changeHost]
    exact modify_comm fun hsame host => (hchange hsame host _ _).symm
  exact congrArg (fun hosts => ({ world with hosts, notices } : World)) hhosts

/-- A change of the table of patterns is one of what is there instead. -/
theorem widen_changePatterns (change : Record → Record) :
    (ext.widen patterns notices world).changeRecord (.patterns ext.id) change =
      ext.widen (change patterns) notices (world.changeRecord (.patterns ext.id) change) := by
  have hhosts : ((world.withTables ext.id ext.wide patterns).changeRecord
      (.patterns ext.id) change).hosts = ((world.changeRecord
        (.patterns ext.id) change).withTables ext.id ext.wide (change patterns)).hosts := by
    simp only [World.withTables, World.changeRecord, World.changeHost_changeHost]
    rfl
  exact congrArg (fun hosts => ({ world with hosts, notices } : World)) hhosts

theorem widen_addHost (hpresent : ext.id < world.hosts.size) (host : Host) :
    ext.widen patterns notices (world.addHost host) =
      (ext.widen patterns notices world).addHost host := by
  have hhosts : ((world.addHost host).withTables ext.id ext.wide patterns).hosts =
      ((world.withTables ext.id ext.wide patterns).addHost host).hosts := by
    refine Array.ext (by simp [World.withTables, World.changeHost, World.addHost]) ?_
    intro index _ hindex
    simp only [World.withTables, World.changeHost, World.addHost, Array.getElem_modify,
      Array.getElem_push, Array.size_modify, Array.size_push] at hindex ⊢
    -- the new host is behind the one whose tables change
    by_cases hlast : index = world.hosts.size
    · subst hlast
      simp [Nat.ne_of_lt hpresent]
    · have hinside : index < world.hosts.size := by omega
      simp [hinside]
  exact congrArg (fun hosts => ({ world with hosts, notices } : World)) hhosts

end Widen

end Extension

end Rulebook
