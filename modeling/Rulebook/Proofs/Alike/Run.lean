import Rulebook.Kernel
import Rulebook.Proofs.Alike.World

/-!
# Runs that go the same way

One run follows another if from worlds that are alike both end with the same fault, or with results
that are alike, and leave worlds that are alike. Runs that are put together from such parts follow
each other, and so do the primitives, given what is alike.
-/

namespace Rulebook

/-- Two runs end with the same fault or with results that are related. -/
inductive EndAlike {α β : Type} (rel : α → β → Prop) : Except Fault α → Except Fault β → Prop
  | ok {result : α} {result' : β} (hrel : rel result result') :
      EndAlike rel (.ok result) (.ok result')
  | error (fault : Fault) : EndAlike rel (.error fault) (.error fault)

theorem EndAlike.mono {α β : Type} {rel wider : α → β → Prop} {one : Except Fault α}
    {two : Except Fault β} (hend : EndAlike rel one two)
    (hwider : ∀ {result result'}, rel result result' → wider result result') :
    EndAlike wider one two := by
  cases hend with
  | ok hrel => exact .ok (hwider hrel)
  | error fault => exact .error fault

theorem EndAlike.eq {α : Type} {one two : Except Fault α} (hend : EndAlike Eq one two) :
    one = two := by
  cases hend with
  | ok hresult => rw [hresult]
  | error fault => rfl

/-- From worlds that are alike two runs go the same way. -/
def Bond.Follows {α β : Type} (bond : Bond) (rel : α → β → Prop) (run : Run α) (run' : Run β) :
    Prop :=
  ∀ world world', world.Alike bond world' →
    EndAlike rel (run.outcome world).1 (run'.outcome world').1 ∧
      (run.outcome world).2.Alike bond (run'.outcome world').2

/-! ## Changes of alike worlds -/

/-! ### What is out of sight -/

/-- Two numbers name one host that is in sight. -/
def Bond.Seen (bond : Bond) (id id' : HostId) : Prop := id = id' ∧ bond.Sees id

theorem Bond.Sees.ne_parser {bond : Bond} {id : HostId} (hsight : bond.Sees id)
    {apart : Apart} (happart : bond.apart = some apart) : id ≠ bond.parser := by
  rcases hsight with hnone | hne
  · rw [hnone] at happart
    cases happart
  · exact hne

namespace HostsApart

variable {id : HostId} {apart : Apart} {world world' : World}
  (hworlds : HostsApart id apart world.hosts world'.hosts)

include hworlds

theorem addHost (host host' : Host) (hsizes : world.hosts.size = world'.hosts.size) :
    HostsApart id apart (world.addHost host).hosts (world'.addHost host').hosts where
  present := by
    rw [World.addHost, Array.size_push]
    exact Nat.lt_succ_of_lt hworlds.present
  one := by
    refine ((world.host_addHost host id).trans ?_).trans hworlds.one
    exact if_neg (Nat.ne_of_lt hworlds.present)
  other := by
    refine ((world'.host_addHost host' id).trans ?_).trans hworlds.other
    exact if_neg (Nat.ne_of_lt (hsizes ▸ hworlds.present))

theorem changeHost {other : HostId} (hother : other ≠ id) (change change' : Host → Host) :
    HostsApart id apart (world.changeHost other change).hosts
      (world'.changeHost other change').hosts where
  present := by
    rw [World.changeHost, Array.size_modify]
    exact hworlds.present
  one := by
    refine ((world.host_changeHost other id change).trans ?_).trans hworlds.one
    exact if_neg fun hsame => hother hsame.1
  other := by
    refine ((world'.host_changeHost other id change').trans ?_).trans hworlds.other
    exact if_neg fun hsame => hother hsame.1

theorem changeRecord {ref : RecordRef}
    (hsight : ∀ other, ref = .options other ∨ ref = .rules other ∨ ref = .patterns other →
      other ≠ id) (change change' : Record → Record) :
    HostsApart id apart (world.changeRecord ref change).hosts
      (world'.changeRecord ref change').hosts := by
  cases ref with
  | notes | made => exact hworlds
  | options other => exact hworlds.changeHost (hsight other (.inl rfl)) _ _
  | rules other => exact hworlds.changeHost (hsight other (.inr (.inl rfl))) _ _
  | patterns other => exact hworlds.changeHost (hsight other (.inr (.inr rfl))) _ _

end HostsApart

/-- A change of nodes that leaves alone what the nodes were made with. -/
structure NodeCell.KeepsOwn (change : NodeCell → NodeCell) : Prop where
  children : ∀ cell, (change cell).ownChildren = cell.ownChildren
  notes : ∀ cell, (change cell).ownNotes = cell.ownNotes

theorem NodeCell.keepsOwn_setAttribute (name : String) (content : Value) :
    NodeCell.KeepsOwn (NodeCell.setAttribute · name content) where
  children cell := by unfold NodeCell.setAttribute; split <;> rfl
  notes cell := by unfold NodeCell.setAttribute; split <;> rfl

/-- A change of hosts that leaves alone what the hosts were made with. -/
structure Host.KeepsOwn (change : Host → Host) : Prop where
  options : ∀ host, (change host).ownOptions = host.ownOptions
  rules : ∀ host, (change host).ownRules = host.ownRules
  patterns : ∀ host, (change host).ownPatterns = host.ownPatterns

theorem Host.keepsOwn_setAttribute (name : String) (content : Value) :
    Host.KeepsOwn (Host.setAttribute · name content) where
  options host := by unfold Host.setAttribute; split <;> rfl
  rules host := by unfold Host.setAttribute; split <;> rfl
  patterns host := by unfold Host.setAttribute; split <;> rfl

namespace World.Alike

variable {bond : Bond} {world world' : World}

/-- Changes of nodes that change alike what is alike, and leave alone what the nodes were made
with. -/
structure CellChanges (bond : Bond) (change change' : NodeCell → NodeCell) : Prop where
  alike : ∀ {cell cell'}, cell.Alike bond cell' → (change cell).Alike bond (change' cell')
  keeps : NodeCell.KeepsOwn change
  keeps' : NodeCell.KeepsOwn change'

/-- Changes of hosts that change alike what is alike, and leave alone what the hosts were made
with. -/
structure HostChanges (bond : Bond) (change change' : Host → Host) : Prop where
  alike : ∀ {host host'}, host.Alike bond host' → (change host).Alike bond (change' host')
  keeps : Host.KeepsOwn change
  keeps' : Host.KeepsOwn change'

theorem addCell (hworld : world.Alike bond world') {cell cell' : NodeCell}
    (hcell : cell.Alike bond cell') (hchildren : bond.Items cell.ownChildren cell'.ownChildren)
    (hnotes : cell.ownNotes.Alike bond cell'.ownNotes) :
    ({ world with forest := world.forest.add cell } : World).Alike bond
      { world' with forest := world'.forest.add cell' } := by
  have hcells : ∀ id, (id = world.forest.size ↔ id = world'.forest.size) := fun id => by
    rw [hworld.sizes.forest]
  exact
    { hworld with
      sizes := { hworld.sizes with forest := by simp [hworld.sizes.forest] }
      cell := fun id => by
        simp only [World.cell, Forest.cell_add, ← hcells]
        split
        next => exact hcell
        next => exact hworld.cell id
      items := fun ref => by
        cases ref with
        | children node =>
            simp only [World.items, World.cell, Forest.cell_add, ← hcells]
            split
            next => exact hchildren
            next => exact hworld.items (.children node)
        | stack number => exact hworld.items (.stack number)
        | made number => exact hworld.items (.made number)
      record := fun ref hsight => by
        cases ref with
        | notes node =>
            simp only [World.record, World.cell, Forest.cell_add, ← hcells]
            split
            next => exact hnotes
            next => exact hworld.record (.notes node) hsight
        | options id => exact hworld.record (.options id) hsight
        | rules id => exact hworld.record (.rules id) hsight
        | patterns id => exact hworld.record (.patterns id) hsight
        | made number => exact hworld.record (.made number) hsight }

theorem changeCell (hworld : world.Alike bond world') (id : NodeId)
    {change change' : NodeCell → NodeCell} (hchange : CellChanges bond change change') :
    (world.changeCell id change).Alike bond (world'.changeCell id change') := by
  obtain ⟨halike, hkeeps, hkeeps'⟩ := hchange
  have hinside : ∀ other, (id = other ∧ other < world'.forest.size ↔
      id = other ∧ other < world.forest.size) := fun other => by rw [hworld.sizes.forest]
  exact
    { hworld with
      sizes := (world.sameSizes_changeCell id change).symm.trans
        (hworld.sizes.trans (world'.sameSizes_changeCell id change'))
      cell := fun other => by
        simp only [World.cell, World.changeCell, Forest.cell_modify, hinside]
        split
        next => exact halike (hworld.cell other)
        next => exact hworld.cell other
      items := fun ref => by
        cases ref with
        | children node =>
            have hitems := hworld.items (.children node)
            simp only [World.items, World.cell, World.changeCell, Forest.cell_modify] at hitems ⊢
            split <;> split <;> simpa only [hkeeps.children, hkeeps'.children] using hitems
        | stack number => exact hworld.items (.stack number)
        | made number => exact hworld.items (.made number)
      record := fun ref hsight => by
        cases ref with
        | notes node =>
            have hrecord := hworld.record (.notes node) hsight
            simp only [World.record, World.cell, World.changeCell, Forest.cell_modify] at hrecord ⊢
            split <;> split <;> simpa only [hkeeps.notes, hkeeps'.notes] using hrecord
        | options id => exact hworld.record (.options id) hsight
        | rules id => exact hworld.record (.rules id) hsight
        | patterns id => exact hworld.record (.patterns id) hsight
        | made number => exact hworld.record (.made number) hsight }

/-- The next host to be made will be in sight. -/
theorem sees_next (hworld : world.Alike bond world') : bond.Sees world.hosts.size := by
  rcases happart : bond.apart with _ | apart
  · exact .inl happart
  · exact .inr (Nat.ne_of_gt (hworld.apart apart happart).present)

theorem addHost (hworld : world.Alike bond world') {host host' : Host}
    (hhost : host.Alike bond host') (hoptions : host.ownOptions.Alike bond host'.ownOptions)
    (hrules : host.ownRules.Alike bond host'.ownRules)
    (hpatterns : host.ownPatterns.Alike bond host'.ownPatterns) :
    (world.addHost host).Alike bond (world'.addHost host') := by
  have hhosts : ∀ id, (id = world.hosts.size ↔ id = world'.hosts.size) := fun id => by
    rw [hworld.sizes.hosts]
  exact
    { hworld with
      sizes := { hworld.sizes with hosts := by simp [World.addHost, hworld.sizes.hosts] }
      host := fun id hsight => by
        simp only [World.host_addHost, ← hhosts]
        split
        next => exact hhost
        next => exact hworld.host id hsight
      apart := fun apart happart =>
        (hworld.apart apart happart).addHost host host' hworld.sizes.hosts.symm
      record := fun ref hsight => by
        have hrecord := hworld.record ref hsight
        cases ref with
        | notes node => exact hrecord
        | options id =>
            simp only [World.record, World.host_addHost, ← hhosts] at hrecord ⊢
            split
            next => exact hoptions
            next => exact hrecord
        | rules id =>
            simp only [World.record, World.host_addHost, ← hhosts] at hrecord ⊢
            split
            next => exact hrules
            next => exact hrecord
        | patterns id =>
            simp only [World.record, World.host_addHost, ← hhosts] at hrecord ⊢
            split
            next => exact hpatterns
            next => exact hrecord
        | made number => exact hrecord }

theorem changeHost (hworld : world.Alike bond world') {id : HostId} (hsight : bond.Sees id)
    {change change' : Host → Host} (hchange : HostChanges bond change change') :
    (world.changeHost id change).Alike bond (world'.changeHost id change') := by
  obtain ⟨halike, hkeeps, hkeeps'⟩ := hchange
  have hinside : ∀ other, (id = other ∧ other < world'.hosts.size ↔
      id = other ∧ other < world.hosts.size) := fun other => by rw [hworld.sizes.hosts]
  exact
    { hworld with
      sizes := (world.sameSizes_changeHost id change).symm.trans
        (hworld.sizes.trans (world'.sameSizes_changeHost id change'))
      host := fun other hother => by
        simp only [World.host_changeHost, hinside]
        split
        next => exact halike (hworld.host other hother)
        next => exact hworld.host other hother
      apart := fun apart happart =>
        (hworld.apart apart happart).changeHost (hsight.ne_parser happart) change change'
      record := fun ref hsight => by
        have hrecord := hworld.record ref hsight
        cases ref with
        | notes node => exact hrecord
        | options other =>
            simp only [World.record, World.host_changeHost] at hrecord ⊢
            split <;> split <;> simpa only [hkeeps.options, hkeeps'.options] using hrecord
        | rules other =>
            simp only [World.record, World.host_changeHost] at hrecord ⊢
            split <;> split <;> simpa only [hkeeps.rules, hkeeps'.rules] using hrecord
        | patterns other =>
            simp only [World.record, World.host_changeHost] at hrecord ⊢
            split <;> split <;> simpa only [hkeeps.patterns, hkeeps'.patterns] using hrecord
        | made number => exact hrecord }

theorem changeItems (hworld : world.Alike bond world') (ref : ListRef)
    {change change' : Array Value → Array Value}
    (hchange : ∀ {items items'}, bond.Items items items' →
      bond.Items (change items) (change' items')) :
    (world.changeItems ref change).Alike bond (world'.changeItems ref change') where
  sizes := (world.sameSizes_changeItems ref change).symm.trans
    (hworld.sizes.trans (world'.sameSizes_changeItems ref change'))
  cell id := by
    have hcell := hworld.cell id
    simp only [World.cell_changeItems]
    split <;> split <;> exact { hcell with }
  host id hsight := by simpa only [World.host_changeItems] using hworld.host id hsight
  apart := by cases ref <;> exact hworld.apart
  notices := by cases ref <;> exact hworld.notices
  items other := by
    classical
    simp only [World.items_changeItems, hworld.sizes.hasList]
    split
    next => exact hchange (hworld.items other)
    next => exact hworld.items other
  record other hsight := by
    simpa only [World.record_changeItems] using hworld.record other hsight
  extras := by cases ref <;> exact hworld.extras
  globals := by cases ref <;> exact hworld.globals
  frame := by cases ref <;> exact hworld.frame
  traces := by cases ref <;> exact hworld.traces
  serial := by cases ref <;> exact hworld.serial
  fits := by cases ref <;> exact hworld.fits

/-- A registry that is out of sight may change in any way. -/
theorem changeRecord (hworld : world.Alike bond world') {ref : RecordRef}
    (hsight : bond.Shows ref ∨ bond.apart = none) {change change' : Record → Record}
    (hchange : bond.Shows ref → ∀ {record record' : Record}, record.Alike bond record' →
      Record.Alike bond (change record) (change' record')) :
    (world.changeRecord ref change).Alike bond (world'.changeRecord ref change') where
  sizes := (world.sameSizes_changeRecord ref change).symm.trans
    (hworld.sizes.trans (world'.sameSizes_changeRecord ref change'))
  cell id := by
    obtain ⟨_, hcell⟩ := world.cell_changeRecord ref change id
    obtain ⟨_, hcell'⟩ := world'.cell_changeRecord ref change' id
    rw [hcell, hcell']
    exact { hworld.cell id with }
  host id hid := by
    obtain ⟨_, _, _, _, hhost⟩ := world.host_changeRecord ref change id
    obtain ⟨_, _, _, _, hhost'⟩ := world'.host_changeRecord ref change' id
    rw [hhost, hhost']
    exact { hworld.host id hid with }
  apart apart happart := by
    rcases hsight with hsight | hnone
    · refine (hworld.apart apart happart).changeRecord ?_ change change'
      rintro other (rfl | rfl | rfl)
      · exact Bond.Sees.ne_parser hsight happart
      · exact Bond.Sees.ne_parser hsight happart
      · exact hsight
    · rw [hnone] at happart
      cases happart
  notices := by cases ref <;> exact hworld.notices
  items other := by simpa only [World.items_changeRecord] using hworld.items other
  record other hother := by
    classical
    simp only [World.record_changeRecord, hworld.sizes.hasRecord]
    split
    next hsame => exact hchange (hsame.1 ▸ hother) (hworld.record other hother)
    next => exact hworld.record other hother
  extras := by cases ref <;> exact hworld.extras
  globals := by cases ref <;> exact hworld.globals
  frame := by cases ref <;> exact hworld.frame
  traces := by cases ref <;> exact hworld.traces
  serial := by cases ref <;> exact hworld.serial
  fits := by cases ref <;> exact hworld.fits

theorem addList (hworld : world.Alike bond world') {items items' : Array Value}
    (hitems : bond.Items items items') :
    ({ world with lists := world.lists.push items } : World).Alike bond
      { world' with lists := world'.lists.push items' } :=
  { hworld with
    sizes := { hworld.sizes with lists := by simp [hworld.sizes.lists] }
    items := fun ref => by
      cases ref with
      | children node => exact hworld.items (.children node)
      | stack number => exact hworld.items (.stack number)
      | made number =>
          simp only [World.items, getD_push, hworld.sizes.lists]
          split
          next => exact hitems
          next => exact hworld.items (.made number) }

theorem addStack (hworld : world.Alike bond world') {items items' : Array Value}
    (hitems : bond.Items items items') :
    ({ world with openStacks := world.openStacks.push items } : World).Alike bond
      { world' with openStacks := world'.openStacks.push items' } :=
  { hworld with
    sizes := { hworld.sizes with openStacks := by simp [hworld.sizes.openStacks] }
    items := fun ref => by
      cases ref with
      | children node => exact hworld.items (.children node)
      | made number => exact hworld.items (.made number)
      | stack number =>
          simp only [World.items, getD_push, hworld.sizes.openStacks]
          split
          next => exact hitems
          next => exact hworld.items (.stack number) }

theorem addRecord (hworld : world.Alike bond world') {record record' : Record}
    (hrecord : record.Alike bond record') :
    ({ world with records := world.records.push record } : World).Alike bond
      { world' with records := world'.records.push record' } :=
  { hworld with
    sizes := { hworld.sizes with records := by simp [hworld.sizes.records] }
    record := fun ref hsight => by
      have hold := hworld.record ref hsight
      cases ref with
      | made number =>
          simp only [World.record, getD_push, hworld.sizes.records] at hold ⊢
          split
          next => exact hrecord
          next => exact hold
      | _ => exact hold }

end World.Alike

namespace Bond.Follows

open Run

variable {bond : Bond}

/-! ## One part after another -/

section Rules

variable {α α' β β' : Type} {rel : α → α' → Prop} {after : β → β' → Prop} {run : Run α}
  {run' : Run α'} {next : α → Run β} {next' : α' → Run β'}

theorem pure {result : α} {result' : α'} (hrel : rel result result') :
    bond.Follows rel (Pure.pure result) (Pure.pure result') :=
  fun _ _ hworld => ⟨.ok hrel, hworld⟩

theorem fail (fault : Fault) : bond.Follows rel (Run.fail fault) (Run.fail fault) :=
  fun _ _ hworld => ⟨.error fault, hworld⟩

theorem bind (hrun : bond.Follows rel run run')
    (hnext : ∀ result result', rel result result' →
      bond.Follows after (next result) (next' result')) :
    bond.Follows after (run >>= next) (run' >>= next') := by
  intro world world' hworld
  obtain ⟨hend, hbetween⟩ := hrun world world' hworld
  rw [outcome_bind, outcome_bind]
  rcases hone : run.outcome world with ⟨result, between⟩
  rcases htwo : run'.outcome world' with ⟨result', between'⟩
  rw [hone, htwo] at hend hbetween
  cases hend with
  | ok hrel => exact hnext _ _ hrel between between' hbetween
  | error fault => exact ⟨.error fault, hbetween⟩

theorem failBind (fault : Fault) {next : α → Run β} {next' : α' → Run β'} :
    bond.Follows after (Run.fail fault >>= next) (Run.fail fault >>= next') :=
  fun _ _ hworld => ⟨.error fault, hworld⟩

/-- What is the same in both runs is told as one. -/
theorem bindEq {run run' : Run α} {next : α → Run β} {next' : α → Run β'}
    (hrun : bond.Follows Eq run run')
    (hnext : ∀ result, bond.Follows after (next result) (next' result)) :
    bond.Follows after (run >>= next) (run' >>= next') :=
  hrun.bind fun _ _ heq => heq ▸ hnext _

/-- Runs that ask the world something follow each other if they do so for every answer. -/
theorem get {next : World → Run β} {next' : World → Run β'}
    (hnext : ∀ world world', world.Alike bond world' →
      bond.Follows after (next world) (next' world')) :
    bond.Follows after (MonadState.get >>= next) (MonadState.get >>= next') :=
  fun world world' hworld => hnext world world' hworld world world' hworld

theorem modify {change change' : World → World}
    (hchange : ∀ world world', world.Alike bond world' →
      (change world).Alike bond (change' world')) :
    bond.Follows Eq (modify change : Run PUnit) (modify change' : Run PUnit) :=
  fun world world' hworld => ⟨.ok rfl, hchange world world' hworld⟩

theorem observe (hrun : bond.Follows rel run run') :
    bond.Follows (EndAlike rel) run.observe run'.observe :=
  fun world world' hworld => ⟨.ok (hrun world world' hworld).1, (hrun world world' hworld).2⟩

theorem mono {wider : α → α' → Prop} (hrun : bond.Follows rel run run')
    (hwider : ∀ {result result'}, rel result result' → wider result result') :
    bond.Follows wider run run' := by
  intro world world' hworld
  obtain ⟨hend, hafter⟩ := hrun world world' hworld
  exact ⟨hend.mono hwider, hafter⟩

theorem ite {condition : Prop} [Decidable condition] {yes no : Run α} {yes' no' : Run α'}
    (hyes : bond.Follows rel yes yes') (hno : bond.Follows rel no no') :
    bond.Follows rel (if condition then yes else no) (if condition then yes' else no') := by
  split
  next => exact hyes
  next => exact hno

theorem mapM {step : α → Run β} {step' : α' → Run β'} {values : List α} {values' : List α'}
    (hvalues : List.Forall₂ rel values values')
    (hstep : ∀ {value value'}, rel value value' → bond.Follows after (step value) (step' value')) :
    bond.Follows (List.Forall₂ after) (values.mapM step) (values'.mapM step') := by
  induction hvalues with
  | nil => exact pure .nil
  | cons hvalue _ ih =>
      rw [List.mapM_cons, List.mapM_cons]
      refine (hstep hvalue).bind fun _ _ hhead => ?_
      exact ih.bind fun _ _ htail => pure (.cons hhead htail)

end Rules

/-! ## Primitives -/

section Primitives

variable {α β : Type} {rel : α → β → Prop} {value value' other other' : Value}

theorem fresh : bond.Follows bond.Pairs Run.fresh Run.fresh := by
  intro world world' hworld
  refine ⟨.ok ?_, ?_⟩
  · rw [← hworld.serial]
    exact hworld.fits _ (Nat.le_refl _)
  · exact
      { hworld with
        sizes := { hworld.sizes with }
        serial := congrArg (· + 1) hworld.serial
        fits := fun serial hserial => hworld.fits serial (Nat.le_of_succ_le hserial) }

theorem notify (notice : Notice) : bond.Follows Eq (Run.notify notice) (Run.notify notice) :=
  modify fun _ _ hworld =>
    { hworld with
      sizes := { hworld.sizes with }
      notices := fun apart happart => by
        obtain ⟨added, hone, hother⟩ := hworld.notices apart happart
        refine ⟨added.push notice, ?_, ?_⟩
        · rw [hone, Array.append_push]
        · rw [hother, Array.append_push] }

theorem cell (id : NodeId) :
    bond.Follows (NodeCell.Alike bond) (Run.cell id) (Run.cell id) :=
  get fun _ _ hworld => pure (hworld.cell id)

theorem host {id : HostId} (hsight : bond.Sees id) :
    bond.Follows (Host.Alike bond) (Run.host id) (Run.host id) :=
  get fun _ _ hworld => pure (hworld.host id hsight)

theorem items (ref : ListRef) : bond.Follows bond.Items (Run.items ref) (Run.items ref) :=
  get fun _ _ hworld => pure (hworld.items ref)

theorem record {ref : RecordRef} (hsight : bond.Shows ref) :
    bond.Follows (Record.Alike bond) (Run.record ref) (Run.record ref) :=
  get fun _ _ hworld => pure (hworld.record ref hsight)

theorem newNode {label label' val val' position position' : Value}
    (hlabel : label.Alike bond label') (hval : val.Alike bond val')
    (hposition : position.Alike bond position') :
    bond.Follows Eq (Run.newNode label val position) (Run.newNode label' val' position') :=
  get fun world world' hworld => by
    rw [hworld.sizes.forest]
    refine bindEq (modify fun _ _ hworld => ?_) fun _ => pure rfl
    exact hworld.addCell
      { label := hlabel, val := hval, position := hposition, children := .list _, parent := .null
        notes := .record trivial, extras := .nil } .nil .nil

theorem changeCell (id : NodeId) {change change' : NodeCell → NodeCell}
    (hchange : World.Alike.CellChanges bond change change') :
    bond.Follows Eq (Run.changeCell id change) (Run.changeCell id change') :=
  modify fun _ _ hworld => hworld.changeCell id hchange

theorem newHost {host host' : HostId → Host}
    (hhost : ∀ id, bond.Sees id → (host id).Alike bond (host' id))
    (hoptions : ∀ id, (host id).ownOptions.Alike bond (host' id).ownOptions)
    (hrules : ∀ id, (host id).ownRules.Alike bond (host' id).ownRules)
    (hpatterns : ∀ id, (host id).ownPatterns.Alike bond (host' id).ownPatterns) :
    bond.Follows bond.Seen (Run.newHost host) (Run.newHost host') :=
  get fun world world' hworld => by
    rw [hworld.sizes.hosts]
    refine bindEq (modify fun _ _ hnow => ?_) fun _ => pure ⟨rfl, hworld.sees_next⟩
    exact hnow.addHost (hhost _ hworld.sees_next) (hoptions _) (hrules _) (hpatterns _)

theorem changeHost {id : HostId} (hsight : bond.Sees id) {change change' : Host → Host}
    (hchange : World.Alike.HostChanges bond change change') :
    bond.Follows Eq (Run.changeHost id change) (Run.changeHost id change') :=
  modify fun _ _ hworld => hworld.changeHost hsight hchange

theorem newList {items items' : Array Value} (hitems : bond.Items items items') :
    bond.Follows (Value.Alike bond) (Run.newList items) (Run.newList items') :=
  get fun world world' hworld => by
    rw [hworld.sizes.lists]
    exact bindEq (modify fun _ _ hworld => hworld.addList hitems) fun _ => pure (.list _)

theorem newStack {items items' : Array Value} (hitems : bond.Items items items') :
    bond.Follows (Value.Alike bond) (Run.newStack items) (Run.newStack items') :=
  get fun world world' hworld => by
    rw [hworld.sizes.openStacks]
    exact bindEq (modify fun _ _ hworld => hworld.addStack hitems) fun _ => pure (.list _)

theorem newRecord {record record' : Record} (hrecord : record.Alike bond record') :
    bond.Follows (Value.Alike bond) (Run.newRecord record) (Run.newRecord record') :=
  get fun world world' hworld => by
    rw [hworld.sizes.records]
    exact bindEq (modify fun _ _ hworld => hworld.addRecord hrecord) fun _ => pure (.record trivial)

theorem changeItems (ref : ListRef) {change change' : Array Value → Array Value}
    (hchange : ∀ {items items'}, bond.Items items items' →
      bond.Items (change items) (change' items')) :
    bond.Follows Eq (Run.changeItems ref change) (Run.changeItems ref change') :=
  modify fun _ _ hworld => hworld.changeItems ref hchange

theorem changeRecord {ref : RecordRef} (hsight : bond.Shows ref ∨ bond.apart = none)
    {change change' : Record → Record}
    (hchange : bond.Shows ref → ∀ {record record' : Record}, record.Alike bond record' →
      Record.Alike bond (change record) (change' record')) :
    bond.Follows Eq (Run.changeRecord ref change) (Run.changeRecord ref change') :=
  modify fun _ _ hworld => hworld.changeRecord hsight hchange

theorem lacks (halike : value.Alike bond value') (name : String) :
    bond.Follows rel (Run.lacks value name) (Run.lacks value' name) :=
  get fun _ _ hworld => by
    rw [hworld.readClassName halike]
    exact fail _

theorem spell (halike : value.Alike bond value') :
    bond.Follows Eq (Run.spell value) (Run.spell value') :=
  get fun _ _ hworld => pure (hworld.spell halike)

theorem plainText (halike : value.Alike bond value') :
    bond.Follows Eq (Run.plainText value) (Run.plainText value') :=
  get fun _ _ hworld => pure (hworld.plainText halike)

theorem isSet (halike : value.Alike bond value') :
    bond.Follows Eq (Run.isSet value) (Run.isSet value') :=
  get fun _ _ hworld => pure (hworld.isSet halike)

theorem equal (halike : value.Alike bond value') (hother : other.Alike bond other') :
    bond.Follows Eq (Run.equal value other) (Run.equal value' other') :=
  get fun _ _ hworld => by
    rw [hworld.equal? halike hother]
    split
    next => exact pure rfl
    next => exact fail _

theorem locationOf (cursor : Cursor) :
    bond.Follows (Value.Alike bond) (Run.locationOf cursor) (Run.locationOf cursor) :=
  fresh.bind fun _ _ hserial => pure (.location hserial (.int _) (.int _) (.int _))

mutual

theorem valueOf : ∀ datum : Datum,
    bond.Follows (Value.Alike bond) (Run.valueOf datum) (Run.valueOf datum)
  | .null => pure .null
  | .bool value => pure (.bool value)
  | .int value => pure (.int value)
  | .decimal value => pure (.decimal value)
  | .text value => pure (.text value)
  | .list items => (valuesOf items).bind fun _ _ hvalues => newList hvalues
  | .record fields => (fieldsOf fields).bind fun _ _ hfields =>
      newRecord (Record.Alike.writeAll hfields .nil)

theorem valuesOf : ∀ items : List Datum,
    bond.Follows (List.Forall₂ (Value.Alike bond)) (Run.valuesOf items) (Run.valuesOf items)
  | [] => pure .nil
  | item :: rest => (valueOf item).bind fun _ _ hvalue =>
      (valuesOf rest).bind fun _ _ hvalues => pure (.cons hvalue hvalues)

theorem fieldsOf : ∀ fields : List (String × Datum),
    bond.Follows (List.Forall₂ bond.Named) (Run.fieldsOf fields) (Run.fieldsOf fields)
  | [] => pure .nil
  | (_, field) :: rest => (valueOf field).bind fun _ _ hvalue =>
      (fieldsOf rest).bind fun _ _ hfields => pure (.cons ⟨rfl, hvalue⟩ hfields)

end

end Primitives

end Bond.Follows

end Rulebook
