import Rulebook.World

/-!
# Trees in the store

A tree as it is meant, and the nodes of the store that are it. A parse makes the nodes of its tree
one after another, so a tree takes up consecutive numbers: a node comes right before what is below
it, and siblings follow one another. The number of a node therefore follows from the sizes of the
trees before it, and trees side by side have no node in common.
-/

namespace Rulebook

/-- What a node is headed with. The root of a tree has no span. -/
structure Heading where
  label : String
  val : List Char
  span : Option (Cursor × Cursor)
deriving Repr, DecidableEq

/-- A tree of headings. -/
inductive Tree
  | node (heading : Heading) (below : List Tree)

/-- A tree of one node. -/
def Tree.leaf (heading : Heading) : Tree := .node heading []

mutual

/-- The number of nodes of a tree. -/
def Tree.size : Tree → Nat
  | .node _ below => Tree.sizes below + 1

/-- The number of nodes of trees side by side. -/
def Tree.sizes : List Tree → Nat
  | [] => 0
  | tree :: rest => tree.size + Tree.sizes rest

end

/-- The nodes that trees side by side are headed by, the first of them with a given number. -/
def Tree.heads (start : Nat) : List Tree → List Value
  | [] => []
  | tree :: rest => .node start :: Tree.heads (start + tree.size) rest

/-- A value is what a span is reported as. -/
def Value.Marks (value : Value) : Option (Cursor × Cursor) → Prop
  | none => value = .null
  | some (start, stop) =>
    ∃ serial first last, value = .span serial (.ofCursor first start) (.ofCursor last stop)

/-- A node has a heading and a parent, and but for its notes it has what it was made with. -/
structure NodeCell.Shows (cell : NodeCell) (node : Nat) (heading : Heading) (parent : Value) :
    Prop where
  label : cell.label = .text heading.label
  val : cell.val = .ofChars heading.val
  position : cell.position.Marks heading.span
  children : cell.children = .list (.children node)
  parent : cell.parent = parent
  notes : cell.notes = .record (.notes node)
  extras : cell.extras = .empty

/-- A node has nothing below it yet. -/
structure NodeCell.IsNew (cell : NodeCell) (node : Nat) (heading : Heading) (parent : Value) :
    Prop extends cell.Shows node heading parent where
  childless : cell.ownChildren = #[]

theorem NodeCell.IsNew.below {cell : NodeCell} {node : Nat} {heading : Heading} {parent : Value}
    (hnew : cell.IsNew node heading parent) (other : Value) :
    { cell with parent := other }.IsNew node heading other :=
  { hnew with parent := rfl }

mutual

/-- The nodes from a number on are a tree below a parent. -/
def World.Holds (world : World) (parent : Value) (start : Nat) : Tree → Prop
  | .node heading below =>
    (world.cell start).Shows start heading parent ∧
      (world.cell start).ownChildren.toList = Tree.heads (start + 1) below ∧
      world.HoldsAll (.node start) (start + 1) below

/-- The nodes from a number on are trees side by side below a parent. -/
def World.HoldsAll (world : World) (parent : Value) (start : Nat) : List Tree → Prop
  | [] => True
  | tree :: rest =>
    world.Holds parent start tree ∧ world.HoldsAll parent (start + tree.size) rest

end

namespace Tree

@[simp] theorem size_node (heading : Heading) (below : List Tree) :
    (node heading below).size = sizes below + 1 := by
  rw [size]

@[simp] theorem sizes_nil : sizes [] = 0 := by
  rw [sizes]

@[simp] theorem sizes_cons (tree : Tree) (rest : List Tree) :
    sizes (tree :: rest) = tree.size + sizes rest := by
  rw [sizes]

@[simp] theorem sizes_append (first second : List Tree) :
    sizes (first ++ second) = sizes first + sizes second := by
  induction first with
  | nil => simp
  | cons tree rest ih =>
      rw [List.cons_append, sizes_cons, sizes_cons, ih]
      omega

theorem heads_append (start : Nat) (first second : List Tree) :
    heads start (first ++ second) = heads start first ++ heads (start + sizes first) second := by
  induction first generalizing start with
  | nil => simp [heads]
  | cons tree rest ih =>
      rw [List.cons_append, heads, heads, ih, List.cons_append, sizes_cons, Nat.add_assoc]

end Tree

namespace World

variable {world other : World}

theorem holdsAll_append {parent : Value} (start : Nat) (first second : List Tree) :
    world.HoldsAll parent start (first ++ second) ↔
      world.HoldsAll parent start first ∧
        world.HoldsAll parent (start + Tree.sizes first) second := by
  induction first generalizing start with
  | nil => simp [HoldsAll]
  | cons tree rest ih =>
      rw [List.cons_append, HoldsAll, HoldsAll, ih, Tree.sizes_cons, Nat.add_assoc, and_assoc]

/-! ## What a tree depends on -/

mutual

/-- A tree depends on nothing but its own nodes. -/
theorem Holds.congr {parent : Value} {start : Nat} : ∀ {tree : Tree},
    world.Holds parent start tree →
    (∀ node : Nat, start ≤ node → node < start + tree.size → other.cell node = world.cell node) →
    other.Holds parent start tree
  | .node heading below, hholds, hsame => by
      rw [Holds] at hholds ⊢
      obtain ⟨hshows, hchildren, hbelow⟩ := hholds
      have hself : other.cell start = world.cell start := hsame start (Nat.le_refl start) (by simp)
      rw [hself]
      refine ⟨hshows, hchildren, hbelow.congr fun node hfrom hto => ?_⟩
      rw [Tree.size_node] at hsame
      exact hsame node (by omega) (by omega)

theorem HoldsAll.congr {parent : Value} {start : Nat} : ∀ {trees : List Tree},
    world.HoldsAll parent start trees →
    (∀ node : Nat, start ≤ node → node < start + Tree.sizes trees →
      other.cell node = world.cell node) →
    other.HoldsAll parent start trees
  | [], _, _ => by
      rw [HoldsAll]
      trivial
  | tree :: rest, hholds, hsame => by
      rw [HoldsAll] at hholds ⊢
      rw [Tree.sizes_cons] at hsame
      refine ⟨hholds.1.congr fun node hfrom hto => ?_, hholds.2.congr fun node hfrom hto => ?_⟩
      · exact hsame node hfrom (by omega)
      · exact hsame node (by omega) (by omega)

end

end World

end Rulebook
