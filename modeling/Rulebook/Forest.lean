import Rulebook.Value

/-!
# Nodes

Nodes live in a store and refer to each other by number, so a node can be shared, detached or
even stand below itself. A node is made with a list of children and a record of notes of its own.
What it has for its children, its notes or its parent can be replaced by any value; as long as the
children are its own list, they and the parents of the children still need not agree.
-/

namespace Rulebook

/-- What a node is made of. -/
structure NodeCell where
  label : Value
  val : Value
  position : Value
  children : Value
  parent : Value
  /-- Values attached to the node under names, the match it came from among them. -/
  notes : Value
  /-- The list that the node was made with. -/
  ownChildren : Array Value
  /-- The record that the node was made with. -/
  ownNotes : Record
  /-- Attributes that nodes do not have by themselves. -/
  extras : Table String Value
deriving Inhabited

/-- A node that is not attached to anything. -/
def NodeCell.fresh (id : NodeId) (label val position : Value) : NodeCell where
  label
  val
  position
  children := .list (.children id)
  parent := .null
  notes := .record (.notes id)
  ownChildren := #[]
  ownNotes := .empty
  extras := .empty

namespace NodeCell

/-- The attribute that a node has under a name. -/
def attribute? (cell : NodeCell) (name : String) : Option Value :=
  match name with
  | "type" => some cell.label
  | "val" => some cell.val
  | "position" => some cell.position
  | "nodes" => some cell.children
  | "parent" => some cell.parent
  | "meta" => some cell.notes
  | name => cell.extras.get? name

/-- The node with an attribute set. -/
def setAttribute (cell : NodeCell) (name : String) (value : Value) : NodeCell :=
  match name with
  | "type" => { cell with label := value }
  | "val" => { cell with val := value }
  | "position" => { cell with position := value }
  | "nodes" => { cell with children := value }
  | "parent" => { cell with parent := value }
  | "meta" => { cell with notes := value }
  | name => { cell with extras := cell.extras.insert name value }

end NodeCell

/-- The store of nodes. -/
structure Forest where
  cells : Array NodeCell
deriving Inhabited

namespace Forest

/-- The store without nodes. -/
def empty : Forest := ⟨#[]⟩

/-- The number that the next node gets. -/
def size (forest : Forest) : Nat := forest.cells.size

/-- What a node is made of. -/
def cell (forest : Forest) (id : NodeId) : NodeCell := forest.cells.getD id default

/-- The store with a node more. -/
def add (forest : Forest) (cell : NodeCell) : Forest := ⟨forest.cells.push cell⟩

/-- The store with one node changed. -/
def modify (forest : Forest) (id : NodeId) (change : NodeCell → NodeCell) : Forest :=
  ⟨forest.cells.modify id change⟩

@[simp] theorem size_add (forest : Forest) (cell : NodeCell) :
    (forest.add cell).size = forest.size + 1 := Array.size_push _

@[simp] theorem size_modify (forest : Forest) (id : NodeId) (change : NodeCell → NodeCell) :
    (forest.modify id change).size = forest.size := Array.size_modify

/-- A new node changes no other. -/
theorem cell_add (forest : Forest) (cell : NodeCell) (id : NodeId) :
    (forest.add cell).cell id = if id = forest.size then cell else forest.cell id := by
  simp only [Forest.cell, Forest.add, Forest.size, Array.getD_eq_getD_getElem?, Array.getElem?_push]
  split <;> simp_all

/-- Changing a node changes no other, and nothing where there is no node. -/
theorem cell_modify (forest : Forest) (id other : NodeId) (change : NodeCell → NodeCell) :
    (forest.modify id change).cell other =
      if id = other ∧ other < forest.size then change (forest.cell other)
      else forest.cell other := by
  simp only [Forest.cell, Forest.modify, Forest.size, Array.getD_eq_getD_getElem?,
    Array.getElem?_modify]
  by_cases same : id = other
  · subst same
    by_cases inside : id < forest.cells.size <;> simp [inside]
  · simp [same]

/-- A change of the newest node could have been made before it was added. -/
theorem modify_add (forest : Forest) (cell : NodeCell) (change : NodeCell → NodeCell) :
    (forest.add cell).modify forest.size change = forest.add (change cell) := by
  simp only [Forest.add, Forest.modify, Forest.size, Forest.mk.injEq]
  apply Array.ext (by simp)
  intro index hindex _
  simp only [Array.size_modify, Array.size_push] at hindex
  simp only [Array.getElem_modify, Array.getElem_push]
  split
  next heq => simp [← heq]
  next hne => simp [show index < forest.cells.size by omega]

end Forest

end Rulebook
