import Rulebook.Interpreter

/-!
# Quiet runs

Most of what a run does changes no node, no host and no list of open nodes: it looks, makes values
anew, sets variables, and reports. Such a run is quiet, and lists and records that are there stay
as they are while it goes on, because it only makes new ones.
-/

namespace Rulebook

open Run

/-- Nodes, hosts and lists of open nodes are the same, and other lists and records are still there
with what is in them. -/
structure World.Quiet (world after : World) : Prop where
  forest : after.forest = world.forest
  hosts : after.hosts = world.hosts
  openStacks : after.openStacks = world.openStacks
  lists : ∃ more, after.lists = world.lists ++ more
  records : ∃ more, after.records = world.records ++ more

namespace World.Quiet

variable {world middle after : World}

theorem of_eq (hforest : after.forest = world.forest) (hhosts : after.hosts = world.hosts)
    (hstacks : after.openStacks = world.openStacks) (hlists : after.lists = world.lists)
    (hrecords : after.records = world.records) : world.Quiet after :=
  ⟨hforest, hhosts, hstacks, ⟨#[], by simp [hlists]⟩, ⟨#[], by simp [hrecords]⟩⟩

theorem refl (world : World) : world.Quiet world := of_eq rfl rfl rfl rfl rfl

theorem trans (hfirst : world.Quiet middle) (hsecond : middle.Quiet after) :
    world.Quiet after := by
  obtain ⟨lists, hlists⟩ := hfirst.lists
  obtain ⟨lists', hlists'⟩ := hsecond.lists
  obtain ⟨records, hrecords⟩ := hfirst.records
  obtain ⟨records', hrecords'⟩ := hsecond.records
  exact
    { forest := hsecond.forest.trans hfirst.forest
      hosts := hsecond.hosts.trans hfirst.hosts
      openStacks := hsecond.openStacks.trans hfirst.openStacks
      lists := ⟨lists ++ lists', by rw [hlists', hlists, Array.append_assoc]⟩
      records := ⟨records ++ records', by rw [hrecords', hrecords, Array.append_assoc]⟩ }

theorem host_eq (hquiet : world.Quiet after) (id : HostId) : after.host id = world.host id := by
  simp only [World.host, hquiet.hosts]

theorem cell_eq (hquiet : world.Quiet after) (id : NodeId) : after.cell id = world.cell id := by
  simp only [World.cell, hquiet.forest]

theorem push_list (items : Array Value) :
    world.Quiet { world with lists := world.lists.push items } :=
  ⟨rfl, rfl, rfl, ⟨#[items], Array.push_eq_append⟩, ⟨#[], by simp⟩⟩

theorem push_record (record : Record) :
    world.Quiet { world with records := world.records.push record } :=
  ⟨rfl, rfl, rfl, ⟨#[], by simp⟩, ⟨#[record], Array.push_eq_append⟩⟩

end World.Quiet

namespace Run

/-- From whatever world it begins in, a run is quiet, whether it succeeds or fails. -/
def Quiet {α : Type} (run : Run α) : Prop := ∀ world : World, world.Quiet (run.outcome world).2

section Rules

variable {α β : Type} {first run : Run α} {next : α → Run β}

@[simp] theorem quiet_pure (value : α) : (pure value : Run α).Quiet := World.Quiet.refl

@[simp] theorem quiet_fail (fault : Fault) : (fail fault : Run α).Quiet := World.Quiet.refl

@[simp] theorem quiet_get : (get : Run World).Quiet := World.Quiet.refl

theorem quiet_bind (hfirst : first.Quiet) (hnext : ∀ value, (next value).Quiet) :
    (first >>= next).Quiet := by
  intro world
  have hbetween := hfirst world
  rw [outcome_bind]
  rcases houtcome : first.outcome world with ⟨_ | value, between⟩ <;> rw [houtcome] at hbetween
  · exact hbetween
  · exact hbetween.trans (hnext value between)

theorem quiet_modify {change : World → World}
    (hchange : ∀ world : World, world.Quiet (change world)) :
    (modify change : Run PUnit).Quiet :=
  hchange

theorem quiet_ite {condition : Prop} [Decidable condition] {yes no : Run α} (hyes : yes.Quiet)
    (hno : no.Quiet) : (if condition then yes else no).Quiet := by
  split
  next => exact hyes
  next => exact hno

theorem quiet_observe (hrun : run.Quiet) : run.observe.Quiet := hrun

theorem quiet_mapM {step : α → Run β} (hstep : ∀ value, (step value).Quiet) (values : List α) :
    (values.mapM step).Quiet := by
  induction values with
  | nil => exact quiet_pure []
  | cons value rest ih =>
      rw [List.mapM_cons]
      exact quiet_bind (hstep value) fun _ => quiet_bind ih fun _ => quiet_pure _

end Rules

/-! ## Primitives -/

@[simp] theorem quiet_fresh : fresh.Quiet :=
  fun _ => .of_eq rfl rfl rfl rfl rfl

@[simp] theorem quiet_notify (notice : Notice) : (notify notice).Quiet :=
  fun _ => .of_eq rfl rfl rfl rfl rfl

@[simp] theorem quiet_note (datum : Datum) : (note datum).Quiet :=
  fun _ => .of_eq rfl rfl rfl rfl rfl

@[simp] theorem quiet_cell (id : NodeId) : (cell id).Quiet := World.Quiet.refl

@[simp] theorem quiet_host (id : HostId) : (host id).Quiet := World.Quiet.refl

@[simp] theorem quiet_items (ref : ListRef) : (items ref).Quiet := World.Quiet.refl

@[simp] theorem quiet_record (ref : RecordRef) : (record ref).Quiet := World.Quiet.refl

@[simp] theorem quiet_newList (items : Array Value) : (newList items).Quiet :=
  fun _ => .push_list items

@[simp] theorem quiet_newRecord (record : Record) : (newRecord record).Quiet :=
  fun _ => .push_record record

@[simp] theorem quiet_lacks {α : Type} (value : Value) (name : String) :
    (lacks value name : Run α).Quiet :=
  World.Quiet.refl

@[simp] theorem quiet_spell (value : Value) : (spell value).Quiet := World.Quiet.refl

@[simp] theorem quiet_plainText (value : Value) : (plainText value).Quiet := World.Quiet.refl

@[simp] theorem quiet_isSet (value : Value) : (isSet value).Quiet := World.Quiet.refl

@[simp] theorem quiet_equal (one other : Value) : (equal one other).Quiet :=
  quiet_bind quiet_get fun world => by split <;> simp

@[simp] theorem quiet_locationOf (cursor : Cursor) : (locationOf cursor).Quiet :=
  quiet_bind quiet_fresh fun _ => quiet_pure _

mutual

theorem quiet_valueOf : ∀ datum : Datum, (valueOf datum).Quiet
  | .null | .bool _ | .int _ | .decimal _ | .text _ => quiet_pure _
  | .list items => quiet_bind (quiet_valuesOf items) fun _ => quiet_newList _
  | .record fields => quiet_bind (quiet_fieldsOf fields) fun _ => quiet_newRecord _

theorem quiet_valuesOf : ∀ items : List Datum, (valuesOf items).Quiet
  | [] => quiet_pure _
  | item :: rest => quiet_bind (quiet_valueOf item) fun _ =>
      quiet_bind (quiet_valuesOf rest) fun _ => quiet_pure _

theorem quiet_fieldsOf : ∀ fields : List (String × Datum), (fieldsOf fields).Quiet
  | [] => quiet_pure _
  | (_, field) :: rest => quiet_bind (quiet_valueOf field) fun _ =>
      quiet_bind (quiet_fieldsOf rest) fun _ => quiet_pure _

end

/-! ## What is in a value -/

@[simp] theorem quiet_keyOf (value : Value) : (keyOf value).Quiet := by
  rw [keyOf]
  split <;> simp

@[simp] theorem quiet_groupOf (pattern : Pattern) (found : Pattern.Match) (index : Value) :
    (groupOf pattern found index).Quiet := by
  unfold groupOf
  dsimp only
  split <;> simp

@[simp] theorem quiet_lengthOf (value : Value) : (lengthOf value).Quiet := by
  unfold lengthOf
  split
  next => exact quiet_bind (quiet_items _) fun _ => quiet_pure _
  next => exact quiet_bind (quiet_record _) fun _ => quiet_pure _
  next => exact quiet_pure _
  next => exact quiet_pure _
  next => exact quiet_ite (quiet_pure _) (quiet_fail _)
  next => exact quiet_fail _

@[simp] theorem quiet_valuesIn (value : Value) : (valuesIn value).Quiet := by
  unfold valuesIn
  split
  next => exact quiet_bind (quiet_items _) fun _ => quiet_pure _
  next => exact quiet_bind (quiet_record _) fun _ => quiet_pure _
  next => exact quiet_pure _
  next => exact quiet_pure _
  next => exact quiet_fail _

@[simp] theorem quiet_placeAt (length : Nat) (missing : Fault) (index : Value) :
    (placeAt length missing index).Quiet := by
  unfold placeAt
  split
  next => simp
  next => exact quiet_ite (quiet_fail _) (by split <;> simp)

@[simp] theorem quiet_atIndex (values : Array Value) (missing : Fault) (index : Value) :
    (atIndex values missing index).Quiet :=
  quiet_bind (quiet_placeAt _ _ _) fun _ => quiet_pure _

@[simp] theorem quiet_getItem (value index : Value) : (getItem value index).Quiet := by
  unfold getItem
  split
  next => exact quiet_bind (quiet_items _) fun _ => quiet_atIndex _ _ _
  next => exact quiet_atIndex _ _ _
  next => exact quiet_atIndex _ _ _
  next =>
    refine quiet_bind (quiet_keyOf _) fun key => quiet_bind (quiet_record _) fun record => ?_
    split
    next => exact quiet_pure _
    next => exact quiet_bind (quiet_plainText _) fun _ => quiet_fail _
  next => exact quiet_groupOf _ _ _
  next => exact quiet_fail _

@[simp] theorem quiet_restOf (value : Value) (place : Nat) : (restOf value place).Quiet := by
  unfold restOf
  split
  next => exact quiet_pure _
  next => exact quiet_pure _
  next => exact quiet_bind (quiet_items _) fun _ => quiet_newList _
  next => exact quiet_ite (quiet_newList _) (quiet_fail _)
  next => exact quiet_fail _

@[simp] theorem quiet_entryOrNull (value index : Value) : (entryOrNull value index).Quiet := by
  unfold entryOrNull
  split
  next =>
    exact quiet_bind (quiet_keyOf _) fun _ => quiet_bind (quiet_record _) fun _ => quiet_pure _
  next => exact quiet_lacks _ _

@[simp] theorem quiet_pairsIn (value : Value) : (pairsIn value).Quiet := by
  unfold pairsIn
  split
  next => exact quiet_bind (quiet_record _) fun _ => quiet_pure _
  next => exact quiet_lacks _ _

theorem quiet_writePairs (index : Nat) (record : Record) (pairs : List Value) :
    (writePairs index record pairs).Quiet := by
  induction pairs generalizing index record with
  | nil => exact quiet_pure _
  | cons pair rest ih =>
      refine quiet_bind (quiet_valuesIn _) fun values => ?_
      split
      next => exact quiet_bind (quiet_keyOf _) fun _ => ih _ _
      next => exact quiet_fail _

@[simp] theorem quiet_recordFrom (value : Value) : (recordFrom value).Quiet := by
  unfold recordFrom
  split
  next => exact quiet_record _
  next => exact quiet_bind (quiet_valuesIn _) fun _ => quiet_writePairs _ _ _

/-! ## Attributes -/

@[simp] theorem quiet_methodOf (receiver : Value) (name : String) :
    (methodOf receiver name).Quiet :=
  quiet_bind quiet_fresh fun _ => quiet_pure _

@[simp] theorem quiet_firstChild (cell : NodeCell) : (firstChild cell).Quiet :=
  quiet_bind (quiet_isSet _) fun _ => quiet_ite (quiet_getItem _ _) (quiet_pure _)

@[simp] theorem quiet_nodeAttribute (id : NodeId) (name : String) :
    (nodeAttribute id name).Quiet := by
  refine quiet_bind (quiet_cell id) fun cell => ?_
  refine quiet_ite (quiet_entryOrNull _ _) (quiet_ite (quiet_firstChild _) ?_)
  split
  next => exact quiet_pure _
  next => exact quiet_ite (quiet_methodOf _ _) (quiet_lacks _ _)

@[simp] theorem quiet_hostPart (id : HostId) (name : String) : (hostPart id name).Quiet := by
  refine quiet_bind (quiet_host id) fun host => ?_
  split <;> simp

@[simp] theorem quiet_cursor (id : HostId) (lacking : String) :
    (Run.cursor id lacking).Quiet := by
  refine quiet_bind (quiet_host id) fun host => ?_
  split <;> simp

@[simp] theorem quiet_inputLeft (id : HostId) : (inputLeft id).Quiet :=
  quiet_bind (quiet_hostPart _ _) fun _ =>
    quiet_bind (quiet_cursor _ _) fun _ => quiet_restOf _ _

@[simp] theorem quiet_hostAttribute (id : HostId) (name : String) :
    (hostAttribute id name).Quiet := by
  refine quiet_bind (quiet_host id) fun host => quiet_ite (quiet_inputLeft _) ?_
  split <;> simp

@[simp] theorem quiet_extra (value : Value) (name : String) : (extra value name).Quiet := by
  refine quiet_bind quiet_get fun world => ?_
  split <;> simp

@[simp] theorem quiet_attributeOf (value : Value) (name : String) :
    (attributeOf value name).Quiet := by
  fun_induction attributeOf value name <;> simp_all

@[simp] theorem quiet_setExtra (value : Value) (name : String) (content : Value) :
    (setExtra value name content).Quiet :=
  quiet_bind (quiet_keyOf _) fun _ => fun _ => .of_eq rfl rfl rfl rfl rfl

@[simp] theorem quiet_hasAttribute (value : Value) (name : String) :
    (hasAttribute value name).Quiet := by
  refine quiet_bind (quiet_observe (quiet_attributeOf value name)) fun result => ?_
  split <;> simp

end Run

end Rulebook
