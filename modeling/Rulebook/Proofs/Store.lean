import Rulebook.World

/-!
# What changing a list or a record leaves alone

What is in a list or a record belongs to the node or the host that was made with it, or to neither.
Changing it changes nothing else of them.
-/

namespace Rulebook

theorem cell_absent {world : World} {node : NodeId} (habsent : ¬node < world.forest.size) :
    world.cell node = default := by
  rw [World.cell, Forest.cell, Array.getD_eq_getD_getElem?,
    Array.getElem?_eq_none (Nat.le_of_not_lt habsent)]
  rfl

theorem getD_push {α : Type} (values : Array α) (last standard : α) (place : Nat) :
    (values.push last).getD place standard =
      if place = values.size then last else values.getD place standard := by
  simp only [Array.getD_eq_getD_getElem?, Array.getElem?_push]
  split <;> simp_all

theorem getD_modify {α : Type} (values : Array α) (place other : Nat) (change : α → α)
    (standard : α) :
    (values.modify place change).getD other standard =
      if place = other ∧ other < values.size then change (values.getD other standard)
      else values.getD other standard := by
  simp only [Array.getD_eq_getD_getElem?, Array.getElem?_modify]
  by_cases hsame : place = other
  · subst hsame
    by_cases hinside : place < values.size <;> simp [hinside]
  · simp [hsame]

namespace World

variable (world : World)

/-- The number of the next host is that of none. -/
theorem host_size : world.host world.hosts.size = default := by
  rw [host, Array.getD_eq_getD_getElem?, Array.getElem?_eq_none (Nat.le_refl _)]
  rfl

@[simp] theorem host_changeItems (ref : ListRef) (change : Array Value → Array Value)
    (id : HostId) : (world.changeItems ref change).host id = world.host id := by
  cases ref <;> rfl

/-- What is in a list after a change was there before, or the change put it there. -/
theorem mem_changeItems {ref other : ListRef} {change : Array Value → Array Value} {value : Value}
    (hvalue : value ∈ (world.changeItems ref change).items other) :
    value ∈ world.items other ∨ ref = other ∧ value ∈ change (world.items ref) := by
  classical
  rw [items_changeItems] at hvalue
  split at hvalue
  next hsame => exact Or.inr ⟨hsame.1, hsame.1 ▸ hvalue⟩
  next => exact Or.inl hvalue

theorem mem_push_items {ref other : ListRef} {item value : Value}
    (hvalue : value ∈ (world.changeItems ref fun values => values.push item).items other) :
    value ∈ world.items other ∨ ref = other ∧ value = item := by
  rcases world.mem_changeItems hvalue with hold | ⟨rfl, hpushed⟩
  · exact Or.inl hold
  · exact (Array.mem_push.mp hpushed).imp_right fun heq => ⟨rfl, heq⟩

theorem mem_pop_items {ref other : ListRef} {value : Value}
    (hvalue : value ∈ (world.changeItems ref Array.pop).items other) :
    value ∈ world.items other := by
  rcases world.mem_changeItems hvalue with hold | ⟨rfl, hpopped⟩
  · exact hold
  · rw [← Array.mem_toList_iff, Array.toList_pop] at hpopped
    exact Array.mem_toList_iff.mp ((List.dropLast_sublist _).subset hpopped)

theorem cell_changeItems (ref : ListRef) (change : Array Value → Array Value) (id : NodeId) :
    (world.changeItems ref change).cell id =
      if ref = .children id ∧ id < world.forest.size then
        { world.cell id with ownChildren := change (world.cell id).ownChildren }
      else world.cell id := by
  cases ref with
  | children node =>
      simp only [changeItems, changeCell, cell, Forest.cell_modify, ListRef.children.injEq]
  | stack | made => rfl

/-- What is in a record matters for nothing but the record. -/
theorem host_changeRecord (ref : RecordRef) (change : Record → Record) (id : HostId) :
    ∃ ownOptions ownRules ownPatterns,
      (ownRules = (world.host id).ownRules ∨ ownRules = change (world.host id).ownRules) ∧
      (world.changeRecord ref change).host id =
        { world.host id with ownOptions, ownRules, ownPatterns } := by
  cases ref with
  | notes | made => exact ⟨_, _, _, .inl rfl, rfl⟩
  | options | patterns =>
      rw [changeRecord, host_changeHost]
      split
      next => exact ⟨_, _, _, .inl rfl, rfl⟩
      next => exact ⟨_, _, _, .inl rfl, rfl⟩
  | rules =>
      rw [changeRecord, host_changeHost]
      split
      next => exact ⟨_, _, _, .inr rfl, rfl⟩
      next => exact ⟨_, _, _, .inl rfl, rfl⟩

/-- What is in a record matters for nothing but the record. -/
theorem cell_changeRecord (ref : RecordRef) (change : Record → Record) (id : NodeId) :
    ∃ ownNotes, (world.changeRecord ref change).cell id =
      { world.cell id with ownNotes } := by
  cases ref with
  | options | rules | patterns | made => exact ⟨_, rfl⟩
  | notes node =>
      simp only [changeRecord, changeCell, cell, Forest.cell_modify]
      split
      next => exact ⟨_, rfl⟩
      next => exact ⟨_, rfl⟩

@[simp] theorem size_changeRecord (ref : RecordRef) (change : Record → Record) :
    (world.changeRecord ref change).forest.size = world.forest.size := by
  cases ref with
  | notes => exact Forest.size_modify _ _ _
  | options | rules | patterns | made => rfl

/-- How much there is of everything. -/
structure SameSizes (world after : World) : Prop where
  forest : after.forest.size = world.forest.size
  hosts : after.hosts.size = world.hosts.size
  openStacks : after.openStacks.size = world.openStacks.size
  lists : after.lists.size = world.lists.size
  records : after.records.size = world.records.size

section SameSizes

variable {world} {middle after : World}

theorem SameSizes.symm (hsizes : world.SameSizes after) : after.SameSizes world :=
  ⟨hsizes.forest.symm, hsizes.hosts.symm, hsizes.openStacks.symm, hsizes.lists.symm,
    hsizes.records.symm⟩

theorem SameSizes.trans (hfirst : world.SameSizes middle) (hsecond : middle.SameSizes after) :
    world.SameSizes after :=
  ⟨hsecond.forest.trans hfirst.forest, hsecond.hosts.trans hfirst.hosts,
    hsecond.openStacks.trans hfirst.openStacks, hsecond.lists.trans hfirst.lists,
    hsecond.records.trans hfirst.records⟩

theorem SameSizes.hasList (hsizes : world.SameSizes after) (ref : ListRef) :
    after.HasList ref ↔ world.HasList ref := by
  cases ref with
  | children => exact iff_of_eq (congrArg _ hsizes.forest)
  | stack => exact iff_of_eq (congrArg _ hsizes.openStacks)
  | made => exact iff_of_eq (congrArg _ hsizes.lists)

theorem SameSizes.hasRecord (hsizes : world.SameSizes after) (ref : RecordRef) :
    after.HasRecord ref ↔ world.HasRecord ref := by
  cases ref with
  | notes => exact iff_of_eq (congrArg _ hsizes.forest)
  | options | rules | patterns => exact iff_of_eq (congrArg _ hsizes.hosts)
  | made => exact iff_of_eq (congrArg _ hsizes.records)

end SameSizes

theorem sameSizes_changeCell (id : NodeId) (change : NodeCell → NodeCell) :
    world.SameSizes (world.changeCell id change) :=
  ⟨Forest.size_modify _ _ _, rfl, rfl, rfl, rfl⟩

theorem sameSizes_changeHost (id : HostId) (change : Host → Host) :
    world.SameSizes (world.changeHost id change) :=
  ⟨rfl, Array.size_modify, rfl, rfl, rfl⟩

theorem sameSizes_changeItems (ref : ListRef) (change : Array Value → Array Value) :
    world.SameSizes (world.changeItems ref change) := by
  cases ref with
  | children => exact world.sameSizes_changeCell _ _
  | stack => exact ⟨rfl, rfl, Array.size_modify, rfl, rfl⟩
  | made => exact ⟨rfl, rfl, rfl, Array.size_modify, rfl⟩

theorem sameSizes_changeRecord (ref : RecordRef) (change : Record → Record) :
    world.SameSizes (world.changeRecord ref change) := by
  cases ref with
  | notes => exact world.sameSizes_changeCell _ _
  | options | rules | patterns => exact world.sameSizes_changeHost _ _
  | made => exact ⟨rfl, rfl, rfl, rfl, Array.size_modify⟩

@[simp] theorem record_changeItems (ref : ListRef) (change : Array Value → Array Value)
    (other : RecordRef) : (world.changeItems ref change).record other = world.record other := by
  cases other with
  | notes node =>
      simp only [record, cell_changeItems]
      split <;> rfl
  | options | rules | patterns => simp only [record, host_changeItems]
  | made => cases ref <;> rfl

@[simp] theorem items_changeRecord (ref : RecordRef) (change : Record → Record) (other : ListRef) :
    (world.changeRecord ref change).items other = world.items other := by
  cases other with
  | children node =>
      obtain ⟨_, hcell⟩ := world.cell_changeRecord ref change node
      simp only [items, hcell]
  | stack | made => cases ref <;> rfl

end World

end Rulebook
