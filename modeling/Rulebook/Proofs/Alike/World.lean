import Rulebook.World.Equality
import Rulebook.World.Spelling
import Rulebook.Proofs.Alike.Value
import Rulebook.Proofs.Store

/-!
# Alike worlds

Worlds are alike if all in them that is in sight is alike, so that questions about values that are
alike have the same answers in both. Nothing that runs can read the notices, so they are compared
only where they could not differ: a registry that is kept out of sight does not come with them.
-/

namespace Rulebook

variable {bond wider : Bond}

/-! ## What a world is made of -/

/-- Two lists hold values that are alike. -/
def Bond.Items (bond : Bond) (items items' : Array Value) : Prop :=
  List.Forall₂ (Value.Alike bond) items.toList items'.toList

/-- Two tables hold values that are alike under the same names. -/
def Bond.Fields (bond : Bond) : Table String Value → Table String Value → Prop :=
  Table.Alike Eq (Value.Alike bond)

/-- Two entries are alike. -/
structure Entry.Alike (bond : Bond) (entry entry' : Entry) : Prop where
  name : entry.name.Alike bond entry'.name
  value : entry.value.Alike bond entry'.value

/-- Two records are alike. -/
def Record.Alike (bond : Bond) : Record → Record → Prop :=
  Table.Alike (Key.Alike bond) (Entry.Alike bond)

/-- Two values are alike and have the same name. -/
def Bond.Named (bond : Bond) (named named' : String × Value) : Prop :=
  named.1 = named'.1 ∧ named.2.Alike bond named'.2

/-- Two values are alike, or both are the registry that is kept out of sight. -/
def Value.Held (bond : Bond) (value value' : Value) : Prop :=
  value.Alike bond value' ∨
    bond.apart = none ∧ value = .record bond.registry ∧ value' = .record bond.registry

/-- Two nodes are alike in their attributes. -/
structure NodeCell.Alike (bond : Bond) (cell cell' : NodeCell) : Prop where
  label : cell.label.Alike bond cell'.label
  val : cell.val.Alike bond cell'.val
  position : cell.position.Alike bond cell'.position
  children : cell.children.Alike bond cell'.children
  parent : cell.parent.Alike bond cell'.parent
  notes : cell.notes.Alike bond cell'.notes
  extras : bond.Fields cell.extras cell'.extras

/-- Two hosts are alike in their attributes. -/
structure Host.Alike (bond : Bond) (host host' : Host) : Prop where
  hostClass : host.hostClass = host'.hostClass
  options : Option.Rel (Value.Alike bond) host.options host'.options
  nested : Option.Rel (Value.Alike bond) host.nested host'.nested
  rules : Option.Rel (Value.Alike bond) host.rules host'.rules
  patterns : Option.Rel (Value.Held bond) host.patterns host'.patterns
  input : Option.Rel (Value.Alike bond) host.input host'.input
  cursor : host.cursor = host'.cursor
  root : Option.Rel (Value.Alike bond) host.root host'.root
  stack : Option.Rel (Value.Alike bond) host.stack host'.stack
  members : bond.Fields host.members host'.members

/-- Under a number, which is taken, two worlds have each its own host. -/
structure HostsApart (id : HostId) (apart : Apart) (hosts hosts' : Array Host) : Prop where
  present : id < hosts.size
  one : hosts.getD id default = apart.one
  other : hosts'.getD id default = apart.other

/-- All that is in sight of two worlds is alike, however far serial numbers are counted. -/
structure World.Resembles (bond : Bond) (world world' : World) : Prop where
  sizes : world.SameSizes world'
  cell : ∀ id, (world.cell id).Alike bond (world'.cell id)
  host : ∀ id, bond.Sees id → (world.host id).Alike bond (world'.host id)
  items : ∀ ref, bond.Items (world.items ref) (world'.items ref)
  record : ∀ ref, bond.Shows ref → (world.record ref).Alike bond (world'.record ref)
  extras : Table.Alike (Key.Alike bond) bond.Fields world.extras world'.extras
  globals : bond.Fields world.globals world'.globals
  frame : bond.Fields world.frame world'.frame
  traces : world.traces = world'.traces
  apart : ∀ apart, bond.apart = some apart →
    HostsApart bond.parser apart world.hosts world'.hosts
  notices : ∀ apart, bond.apart = some apart →
    ∃ added, world.notices = apart.noticed ++ added ∧ world'.notices = apart.noticed' ++ added

/-- Two worlds are alike in all that is in sight, and count serial numbers alike from now on. -/
structure World.Alike (bond : Bond) (world world' : World) : Prop
    extends world.Resembles bond world' where
  serial : world.serial = world'.serial
  fits : ∀ serial, world.serial ≤ serial → bond.Pairs serial serial

theorem Bond.Items.size {items items' : Array Value} (hitems : bond.Items items items') :
    items.size = items'.size := by
  rw [← Array.length_toList, ← Array.length_toList]
  exact List.Forall₂.length_eq hitems

/-! ## Attributes -/

theorem biUnique_eq {α : Type} : Relator.BiUnique (@Eq α) :=
  ⟨fun _ _ _ hone htwo => hone.trans htwo.symm, fun _ _ _ hone htwo => hone.symm.trans htwo⟩

section Attributes

variable {value value' : Value}

theorem Bond.Fields.get? {fields fields' : Table String Value}
    (hfields : bond.Fields fields fields') (name : String) :
    Option.Rel (Value.Alike bond) (fields.get? name) (fields'.get? name) :=
  Table.Alike.get? biUnique_eq hfields rfl

theorem Bond.Fields.insert {fields fields' : Table String Value}
    (hfields : bond.Fields fields fields') (name : String) (halike : value.Alike bond value') :
    bond.Fields (fields.insert name value) (fields'.insert name value') :=
  Table.Alike.insert biUnique_eq hfields rfl halike

theorem Record.Alike.get? {record record' : Record} (hrecord : record.Alike bond record')
    {key key' : Key} (hkey : key.Alike bond key') :
    Option.Rel (Entry.Alike bond) (record.get? key) (record'.get? key') :=
  Table.Alike.get? (Key.biUnique_alike bond) hrecord hkey

theorem Record.Alike.write {record record' : Record} (hrecord : record.Alike bond record')
    {key key' : Key} (hkey : key.Alike bond key') {name name' : Value}
    (hname : name.Alike bond name') (halike : value.Alike bond value') :
    (record.write key name value).Alike bond (record'.write key' name' value') := by
  refine Table.Alike.insert (Key.biUnique_alike bond) hrecord hkey ⟨?_, halike⟩
  rcases (hrecord.get? hkey).cases with ⟨hnone, hnone'⟩ | ⟨entry, entry', hsome, hsome', hentry⟩
  · rw [hnone, hnone']
    exact hname
  · rw [hsome, hsome']
    exact hentry.name

theorem Record.Alike.writeAll {fields fields' : List (String × Value)}
    (hfields : List.Forall₂ bond.Named fields fields') {record record' : Record}
    (hrecord : record.Alike bond record') :
    Record.Alike bond
      (fields.foldl (fun record field => record.write (.text field.1) (.text field.1) field.2) record)
      (fields'.foldl (fun record field => record.write (.text field.1) (.text field.1) field.2)
        record') := by
  induction hfields generalizing record record' with
  | nil => exact hrecord
  | cons hfield _ ih =>
      refine ih (hrecord.write ?_ ?_ hfield.2)
      · exact hfield.1 ▸ .text _
      · exact hfield.1 ▸ .text _

namespace NodeCell.Alike

variable {cell cell' : NodeCell}

theorem attribute? (hcell : cell.Alike bond cell') (name : String) :
    Option.Rel (Value.Alike bond) (cell.attribute? name) (cell'.attribute? name) := by
  unfold NodeCell.attribute?
  split
  next => exact .some hcell.label
  next => exact .some hcell.val
  next => exact .some hcell.position
  next => exact .some hcell.children
  next => exact .some hcell.parent
  next => exact .some hcell.notes
  next => exact hcell.extras.get? name

theorem setAttribute (hcell : cell.Alike bond cell') (name : String)
    (halike : value.Alike bond value') :
    (cell.setAttribute name value).Alike bond (cell'.setAttribute name value') := by
  unfold NodeCell.setAttribute
  split
  next => exact { hcell with label := halike }
  next => exact { hcell with val := halike }
  next => exact { hcell with position := halike }
  next => exact { hcell with children := halike }
  next => exact { hcell with parent := halike }
  next => exact { hcell with notes := halike }
  next => exact { hcell with extras := hcell.extras.insert name halike }

/-- What nodes are compared by is alike. -/
theorem shown (hcell : cell.Alike bond cell') :
    List.Forall₂ (Value.Alike bond) [cell.label, cell.val, cell.position, cell.children]
      [cell'.label, cell'.val, cell'.position, cell'.children] :=
  .cons hcell.label (.cons hcell.val (.cons hcell.position (.cons hcell.children .nil)))

end NodeCell.Alike

theorem Value.Alike.held (halike : value.Alike bond value') : value.Held bond value' := .inl halike

theorem Value.Held.alike (hheld : value.Held bond value') (happart : bond.apart ≠ none) :
    value.Alike bond value' := hheld.resolve_right fun hregistry => happart hregistry.1

namespace Host.Alike

variable {host host' : Host}

/-- The registry that is kept out of sight is only under its own name. -/
theorem attribute? (hhost : host.Alike bond host') {name : String} (hname : name ≠ "regex") :
    Option.Rel (Value.Alike bond) (host.attribute? name) (host'.attribute? name) := by
  unfold Host.attribute?
  split
  next => exact hhost.options
  next => exact hhost.nested
  next => exact hhost.rules
  next => exact absurd rfl hname
  next => exact hhost.input
  next => exact hhost.root
  next => exact hhost.stack
  next => rw [hhost.cursor]; cases host'.cursor <;> constructor; constructor
  next => rw [hhost.cursor]; cases host'.cursor <;> constructor; constructor
  next => rw [hhost.cursor]; cases host'.cursor <;> constructor; constructor
  next => exact hhost.members.get? name

theorem held (hhost : host.Alike bond host') (name : String) :
    Option.Rel (Value.Held bond) (host.attribute? name) (host'.attribute? name) := by
  by_cases hname : name = "regex"
  · rw [hname]
    exact hhost.patterns
  · rcases (hhost.attribute? hname).cases with
      ⟨hnone, hnone'⟩ | ⟨value, value', hsome, hsome', halike⟩
    · rw [hnone, hnone']
      exact .none
    · rw [hsome, hsome']
      exact .some halike.held

theorem setAttribute (hhost : host.Alike bond host') (name : String)
    (halike : value.Alike bond value') :
    (host.setAttribute name value).Alike bond (host'.setAttribute name value') := by
  unfold Host.setAttribute
  split
  next => exact { hhost with options := .some halike }
  next => exact { hhost with nested := .some halike }
  next => exact { hhost with rules := .some halike }
  next => exact { hhost with patterns := .some halike.held }
  next => exact { hhost with input := .some halike }
  next => exact { hhost with root := .some halike }
  next => exact { hhost with stack := .some halike }
  next => exact { hhost with members := hhost.members.insert name halike }

end Host.Alike

end Attributes

/-! ## Names and spellings -/

theorem Value.Alike.callableName {value value' : Value} (halike : value.Alike bond value') :
    World.callableName value = World.callableName value' := by
  induction halike with
  | bound _ _ _ ih => exact ih
  | _ => rfl

namespace World.Alike

variable {world world' : World} {value value' other other' : Value}

theorem extent (hworld : world.Alike bond world') : world.extent = world'.extent := by
  simp only [World.extent, hworld.sizes.forest, hworld.sizes.hosts, hworld.sizes.openStacks,
    hworld.sizes.lists, hworld.sizes.records, hworld.serial]

theorem className (hworld : world.Alike bond world') (halike : value.Alike bond value') :
    world.className value = world'.className value' := by
  cases halike with
  | host hsight => exact congrArg HostClass.name (hworld.host _ hsight).hostClass
  | method _ hreceiver => cases hreceiver <;> rfl
  | _ => rfl

theorem fullClassName (hworld : world.Alike bond world') (halike : value.Alike bond value') :
    world.fullClassName value = world'.fullClassName value' := by
  have hname := hworld.className halike
  cases halike with
  | found _ pattern | pattern pattern =>
      exact congrArg (World.moduleName pattern.dialect ++ "." ++ ·) hname
  | _ => exact hname

theorem readClassName (hworld : world.Alike bond world') (halike : value.Alike bond value') :
    world.readClassName value = world'.readClassName value' := by
  induction halike with
  | bound _ _ _ ih => exact ih
  | method hserial hreceiver name =>
      have hname := hworld.fullClassName (.method hserial hreceiver name)
      cases hreceiver with
      | node | host => rfl
      | _ => exact hname
  | host hsight => exact hworld.fullClassName (.host hsight)
  | _ => rfl

theorem isSet (hworld : world.Alike bond world') (halike : value.Alike bond value') :
    world.isSet value = world'.isSet value' := by
  cases halike with
  | list ref =>
      simp only [World.isSet, Array.isEmpty, (hworld.items ref).size]
  | record hsight => exact congrArg not (hworld.record _ hsight).isEmpty
  | _ => rfl

theorem kindsOf (hworld : world.Alike bond world') (halike : value.Alike bond value') :
    world.kindsOf value = world'.kindsOf value' := by
  cases halike with
  | host hsight => simp only [World.kindsOf, (hworld.host _ hsight).hostClass]
  | _ => rfl

theorem spellWithin (hworld : world.Alike bond world') (fuel : Nat) {path path' : List Value}
    (hpath : List.Forall₂ (Value.Alike bond) path path') (halike : value.Alike bond value') :
    world.spellWithin fuel path value = world'.spellWithin fuel path' value' := by
  induction fuel generalizing path path' value value' with
  | zero => rfl
  | succ fuel ih =>
      have hrepeats : path.any value.same = path'.any value'.same :=
        any_eq_of_forall₂ hpath fun hother => halike.same hother
      have hinner : ∀ {one one' : Value}, one.Alike bond one' →
          world.spellWithin fuel (value :: path) one =
            world'.spellWithin fuel (value' :: path') one' :=
        fun hone => ih (.cons halike hpath) hone
      have hname := halike.callableName
      cases halike with
      | list ref =>
          simp only [World.spellWithin_items, hrepeats, map_eq_of_forall₂ (hworld.items ref) hinner]
      | record hsight =>
          have hentries := map_eq_of_forall₂ (hworld.record _ hsight).values fun hentry =>
            congrArg₂ (fun one two => one ++ ": " ++ two) (hinner hentry.name) (hinner hentry.value)
          simp only [World.spellWithin_record, hrepeats, hentries]
      | location _ hline hcolumn hoffset =>
          simp only [World.spellWithin_location, hrepeats, hinner hline, hinner hcolumn,
            hinner hoffset]
      | span _ hstart hstop =>
          simp only [World.spellWithin_span, hrepeats, hinner hstart, hinner hstop]
      | node id =>
          have hcell := hworld.cell id
          simp only [World.spellWithin_node, hrepeats, hinner hcell.label, hinner hcell.val,
            hinner hcell.position, hinner hcell.children]
      | host hsight => simp only [World.spellWithin_host, (hworld.host _ hsight).hostClass]
      | bound =>
          exact congrArg (fun name => "<bound method " ++ name ++ ">") hname
      | kind kind => cases kind <;> rfl
      | _ => rfl

theorem spell (hworld : world.Alike bond world') (halike : value.Alike bond value') :
    world.spell value = world'.spell value' := by
  rw [World.spell, World.spell, hworld.extent]
  exact hworld.spellWithin _ .nil halike

theorem plainText (hworld : world.Alike bond world') (halike : value.Alike bond value') :
    world.plainText value = world'.plainText value' := by
  have hspell := hworld.spell halike
  cases halike with
  | text => rfl
  | kind kind => cases kind <;> rfl
  | _ => exact hspell

/-! ## Equality -/

theorem equalLists {equal equal' : Value → Value → Option Bool}
    (hequal : ∀ {one one' two two' : Value}, one.Alike bond one' → two.Alike bond two' →
      equal one two = equal' one' two')
    {ones ones' twos twos' : List Value} (hones : List.Forall₂ (Value.Alike bond) ones ones')
    (htwos : List.Forall₂ (Value.Alike bond) twos twos') :
    World.equalLists equal ones twos = World.equalLists equal' ones' twos' := by
  induction hones generalizing twos twos' with
  | nil => cases htwos <;> rfl
  | cons hone _ ih =>
      cases htwos with
      | nil => rfl
      | cons htwo htwos => simp only [World.equalLists, hequal hone htwo, ih htwos]

theorem equalItems {equal equal' : Value → Value → Option Bool}
    (hequal : ∀ {one one' two two' : Value}, one.Alike bond one' → two.Alike bond two' →
      equal one two = equal' one' two')
    {ones ones' twos twos' : List Value} (hones : List.Forall₂ (Value.Alike bond) ones ones')
    (htwos : List.Forall₂ (Value.Alike bond) twos twos') :
    World.equalItems equal ones twos = World.equalItems equal' ones' twos' := by
  rw [World.equalItems, World.equalItems, hones.length_eq, htwos.length_eq,
    equalLists hequal hones htwos]

theorem equalEntries {equal equal' : Value → Value → Option Bool}
    (hequal : ∀ {one one' two two' : Value}, one.Alike bond one' → two.Alike bond two' →
      equal one two = equal' one' two')
    {record record' : Record} (hrecord : record.Alike bond record')
    {entries entries' : List (Key × Entry)}
    (hentries : List.Forall₂ (fun entry entry' =>
      entry.1.Alike bond entry'.1 ∧ entry.2.Alike bond entry'.2) entries entries') :
    World.equalEntries equal record entries = World.equalEntries equal' record' entries' := by
  induction hentries with
  | nil => rfl
  | @cons entry entry' _ _ hentry _ ih =>
      obtain ⟨key, entry⟩ := entry
      obtain ⟨key', entry'⟩ := entry'
      simp only [World.equalEntries]
      rcases (hrecord.get? hentry.1).cases with
        ⟨hnone, hnone'⟩ | ⟨found, found', hsome, hsome', hfound⟩
      · rw [hnone, hnone']
      · rw [hsome, hsome']
        dsimp only
        rw [hequal hentry.2.value hfound.value, ih]

/-- Values that are alike are equal to what is alike. -/
theorem equalWithin (hworld : world.Alike bond world') (fuel : Nat)
    {path path' : List (Value × Value)}
    (hpath : List.Forall₂ (fun pair pair' =>
      pair.1.Alike bond pair'.1 ∧ pair.2.Alike bond pair'.2) path path')
    (halike : value.Alike bond value') (hother : other.Alike bond other') :
    world.equalWithin fuel path value other = world'.equalWithin fuel path' value' other' := by
  induction fuel generalizing path path' value value' other other' with
  | zero => rfl
  | succ fuel ih =>
      have hrepeats : (path.any fun pair => pair.1.same value && pair.2.same other) =
          path'.any fun pair => pair.1.same value' && pair.2.same other' :=
        any_eq_of_forall₂ hpath fun hpair =>
          congrArg₂ and (hpair.1.same halike) (hpair.2.same hother)
      have hinner : ∀ {one one' two two' : Value}, one.Alike bond one' → two.Alike bond two' →
          world.equalWithin fuel ((value, other) :: path) one two =
            world'.equalWithin fuel ((value', other') :: path') one' two' :=
        fun hone htwo => ih (.cons ⟨halike, hother⟩ hpath) hone htwo
      have hsame := halike.same hother
      unfold World.equalWithin
      dsimp only
      rw [hrepeats, hsame]
      refine if_congr Iff.rfl rfl (if_congr Iff.rfl rfl ?_)
      cases halike with
      | list one =>
          cases hother with
          | list two => exact equalItems hinner (hworld.items one) (hworld.items two)
          | _ => rfl
      | record hone =>
          cases hother with
          | record htwo =>
              have hrecord := hworld.record _ hone
              have hrecord' := hworld.record _ htwo
              dsimp only
              rw [hrecord.size, hrecord'.size]
              exact if_congr Iff.rfl (equalEntries hinner hrecord' hrecord) rfl
          | _ => rfl
      | location _ hline hcolumn hoffset =>
          cases hother with
          | location _ hline' hcolumn' hoffset' =>
              exact equalItems hinner (.cons hline (.cons hcolumn (.cons hoffset .nil)))
                (.cons hline' (.cons hcolumn' (.cons hoffset' .nil)))
          | _ => rfl
      | span _ hstart hstop =>
          cases hother with
          | span _ hstart' hstop' =>
              exact equalItems hinner (.cons hstart (.cons hstop .nil))
                (.cons hstart' (.cons hstop' .nil))
          | _ => rfl
      | node one =>
          cases hother with
          | node two => exact equalItems hinner (hworld.cell one).shown (hworld.cell two).shown
          | _ => rfl
      | bound _ receiver hcallable =>
          cases hother with
          | bound _ receiver' hcallable' => exact if_congr Iff.rfl (hinner hcallable hcallable') rfl
          | _ => rfl
      | method _ hreceiver name =>
          cases hother with
          | method _ hreceiver' name' =>
              exact congrArg (fun verdict => some (name == name' && verdict))
                (hreceiver.same hreceiver')
          | _ => rfl
      | _ => cases hother <;> rfl

theorem equal? (hworld : world.Alike bond world') (halike : value.Alike bond value')
    (hother : other.Alike bond other') :
    world.equal? value other = world'.equal? value' other' := by
  rw [World.equal?, World.equal?, hworld.extent]
  exact hworld.equalWithin _ .nil halike hother

end World.Alike

/-! ## Wider bonds -/

theorem Bond.Items.mono {items items' : Array Value} (hitems : bond.Items items items')
    (hwider : bond.Le wider) : wider.Items items items' :=
  List.Forall₂.imp (fun _ _ halike => halike.mono hwider) hitems

theorem Bond.Fields.mono {fields fields' : Table String Value}
    (hfields : bond.Fields fields fields') (hwider : bond.Le wider) :
    wider.Fields fields fields' :=
  List.Forall₂.imp (fun _ _ hentry => ⟨hentry.1, hentry.2.mono hwider⟩) hfields

theorem Key.Alike.mono {key key' : Key} (halike : key.Alike bond key') (hwider : bond.Le wider) :
    key.Alike wider key' := by
  induction halike with
  | location _ _ _ hline hcolumn hoffset => exact .location hline hcolumn hoffset
  | span _ _ hstart hstop => exact .span hstart hstop
  | found hserial => exact .found (hwider.pairs hserial)
  | function hserial => exact .function (hwider.pairs hserial)
  | bound receiver _ hcallable => exact .bound receiver hcallable
  | method _ name hreceiver => exact .method hreceiver name
  | _ => constructor

theorem Record.Alike.mono {record record' : Record} (halike : record.Alike bond record')
    (hwider : bond.Le wider) : record.Alike wider record' :=
  List.Forall₂.imp (fun _ _ hentry =>
    ⟨hentry.1.mono hwider, hentry.2.name.mono hwider, hentry.2.value.mono hwider⟩) halike

theorem Value.Held.mono {value value' : Value} (hheld : value.Held bond value')
    (hwider : bond.Le wider) : value.Held wider value' := by
  rcases hheld with halike | hregistry
  · exact (halike.mono hwider).held
  · right
    rwa [Bond.registry, ← hwider.parser, ← hwider.apart]

theorem NodeCell.Alike.mono {cell cell' : NodeCell} (halike : cell.Alike bond cell')
    (hwider : bond.Le wider) : cell.Alike wider cell' where
  label := halike.label.mono hwider
  val := halike.val.mono hwider
  position := halike.position.mono hwider
  children := halike.children.mono hwider
  parent := halike.parent.mono hwider
  notes := halike.notes.mono hwider
  extras := halike.extras.mono hwider

theorem Host.Alike.mono {host host' : Host} (halike : host.Alike bond host')
    (hwider : bond.Le wider) : host.Alike wider host' where
  hostClass := halike.hostClass
  options := halike.options.mono fun hvalue => hvalue.mono hwider
  nested := halike.nested.mono fun hvalue => hvalue.mono hwider
  rules := halike.rules.mono fun hvalue => hvalue.mono hwider
  patterns := halike.patterns.mono fun hvalue => hvalue.mono hwider
  input := halike.input.mono fun hvalue => hvalue.mono hwider
  cursor := halike.cursor
  root := halike.root.mono fun hvalue => hvalue.mono hwider
  stack := halike.stack.mono fun hvalue => hvalue.mono hwider
  members := halike.members.mono hwider

/-- Worlds go on to resemble each other when more numbers are paired. -/
theorem World.Resembles.mono {world world' : World} (hworld : world.Resembles bond world')
    (hwider : bond.Le wider) (hsame : bond.apart = wider.apart) :
    world.Resembles wider world' where
  sizes := hworld.sizes
  cell id := (hworld.cell id).mono hwider
  host id hsight := (hworld.host id (hwider.sees_iff.mpr hsight)).mono hwider
  items ref := (hworld.items ref).mono hwider
  record ref hsight := (hworld.record ref (hwider.shows_iff.mpr hsight)).mono hwider
  extras := List.Forall₂.imp (fun _ _ hentry => ⟨hentry.1.mono hwider, hentry.2.mono hwider⟩)
    hworld.extras
  globals := hworld.globals.mono hwider
  frame := hworld.frame.mono hwider
  traces := hworld.traces
  apart apart happart := hwider.parser ▸ hworld.apart apart (hsame.trans happart)
  notices apart happart := hworld.notices apart (hsame.trans happart)

end Rulebook
