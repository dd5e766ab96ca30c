import Rulebook.Proofs.RuleTable
import Rulebook.Proofs.Tree

/-!
# Stages of a parse

How far a parse has come: the cursor, and the tree as it has grown. The tree is open along one
path, from the root to the innermost open node, and everything beside that path is complete. A new
node goes below the innermost open one, so it gets the number that the tree leaves off at; opening
it makes the path longer, and closing it makes it one of the complete trees.
-/

namespace Rulebook

/-- An open node with the complete trees below it. -/
structure Level where
  heading : Heading
  done : List Tree

/-- The root of a tree with nothing below it. -/
def Level.root : Level := ⟨⟨"root", [], none⟩, []⟩

/-- The tree of a node that is closed. -/
def Level.tree (level : Level) : Tree := .node level.heading level.done

/-- The level with one more complete tree. -/
def Level.add (level : Level) (tree : Tree) : Level :=
  { level with done := level.done ++ [tree] }

/-- The number of the next node of a tree that is open at levels, the innermost first. -/
def nextNode (root : Nat) : List Level → Nat
  | [] => root
  | level :: outer => nextNode root outer + level.tree.size

/-- The parent of the next node. -/
def parentOfNext (root : Nat) : List Level → Value
  | [] => .null
  | _ :: outer => .node (nextNode root outer)

/-- The open nodes, the root first. -/
def openNodes (root : Nat) : List Level → Array Value
  | [] => #[]
  | _ :: outer => (openNodes root outer).push (.node (nextNode root outer))

/-- The nodes from the root on are a tree that is open at levels. Below the innermost level come
further children. -/
def World.Grows (world : World) (root : Nat) : List Level → List Value → Prop
  | [], _ => True
  | level :: outer, further =>
    let node := nextNode root outer
    (world.cell node).Shows node level.heading (parentOfNext root outer) ∧
      (world.cell node).ownChildren.toList = Tree.heads (node + 1) level.done ++ further ∧
      world.HoldsAll (.node node) (node + 1) level.done ∧
      world.Grows root outer [.node node]

/-- How far a parse has come. -/
structure Stage where
  reading : Reading
  /-- The open levels, the innermost first. -/
  levels : List Level

/-- The world is at a stage of a parse by the rules of a table. -/
structure World.Parses (world : World) (id : HostId) (table : Table String Rule) (stage : Stage) :
    Prop where
  reads : world.Reads id stage.reading
  ruled : world.Ruled id table
  grows : world.Grows stage.reading.root stage.levels []
  size : world.forest.size = nextNode stage.reading.root stage.levels
  opened : world.items (.stack stage.reading.stack) =
    openNodes stage.reading.root stage.levels

section Grows

variable {world other : World} {root : Nat} {level inner : Level} {outer levels : List Level}

theorem nextNode_cons (level : Level) :
    nextNode root (level :: outer) = nextNode root outer + 1 + Tree.sizes level.done := by
  simp only [nextNode, Level.tree, Tree.size_node]
  omega

theorem nextNode_close (inner level : Level) :
    nextNode root (level.add inner.tree :: outer) = nextNode root (inner :: level :: outer) := by
  simp only [nextNode_cons, Level.add, Level.tree, Tree.sizes_append, Tree.sizes_cons,
    Tree.sizes_nil, Tree.size_node]
  omega

theorem size_openNodes (root : Nat) (levels : List Level) :
    (openNodes root levels).size = levels.length := by
  induction levels with
  | nil => rfl
  | cons level outer ih => rw [openNodes, Array.size_push, ih, List.length_cons]

theorem cell_addChild {cell : NodeCell} {parent : Nat} (hparent : parent < world.forest.size)
    (node : Nat) :
    (world.addChild parent cell).cell node =
      if node = parent then
        { world.cell parent with
          ownChildren := (world.cell parent).ownChildren.push (.node world.forest.size) }
      else if node = world.forest.size then cell else world.cell node := by
  simp only [World.addChild, World.changeItems, World.changeCell, World.cell, World.addNode,
    Forest.cell_modify, Forest.cell_add, Forest.size_add]
  split
  next hnode =>
    obtain ⟨rfl, _⟩ := hnode
    rw [if_pos rfl, if_neg (Nat.ne_of_lt hparent)]
  next hnode =>
    have hother : node ≠ parent := by
      rintro rfl
      exact hnode ⟨rfl, Nat.lt_succ_of_lt hparent⟩
    rw [if_neg hother]

namespace World

/-- A growing tree depends on nothing but its own nodes. -/
theorem Grows.congr {further : List Value} (hgrows : world.Grows root levels further)
    (hsame : ∀ node : Nat, node < nextNode root levels → other.cell node = world.cell node) :
    other.Grows root levels further := by
  induction levels generalizing further with
  | nil => trivial
  | cons level outer ih =>
      -- the nodes of a level come after those of the levels around it
      obtain ⟨hshows, hchildren, hholds, hgrows⟩ := hgrows
      rw [nextNode_cons] at hsame
      have hself := hsame (nextNode root outer) (by omega)
      refine ⟨?_, ?_, ?_, ?_⟩
      · rw [hself]; exact hshows
      · rw [hself]; exact hchildren
      · exact hholds.congr fun node _ hto => hsame node hto
      · exact ih hgrows fun node hto => hsame node (by omega)

theorem Grows.addChild {cell : NodeCell} {heading : Heading}
    (hgrows : world.Grows root (level :: outer) [])
    (hsize : world.forest.size = nextNode root (level :: outer))
    (hnew : cell.IsNew world.forest.size heading (.node (nextNode root outer))) :
    (world.addChild (nextNode root outer) cell).Grows root
      (⟨heading, []⟩ :: level :: outer) [] := by
  have hparent : nextNode root outer < world.forest.size := by
    rw [hsize, nextNode_cons]
    omega
  have hcell := @cell_addChild world cell (nextNode root outer) hparent
  obtain ⟨hshows, hchildren, hholds, houter⟩ := hgrows
  refine ⟨?_, ?_, trivial, ?_, ?_, ?_, ?_⟩
  · rw [← hsize, hcell, if_neg (Nat.ne_of_gt hparent), if_pos rfl]
    exact hnew.toShows
  · rw [← hsize, hcell, if_neg (Nat.ne_of_gt hparent), if_pos rfl, hnew.childless]
    rfl
  · rw [hcell, if_pos rfl]
    exact { hshows with }
  · rw [hcell, if_pos rfl, Array.toList_push, hchildren, List.append_nil, hsize]
  · -- the complete trees lie between the parent and the new node
    rw [nextNode_cons] at hsize
    refine hholds.congr fun node hfrom hto => ?_
    rw [hcell, if_neg (by omega), if_neg (by omega)]
  · refine houter.congr fun node hto => ?_
    rw [hcell, if_neg (by omega), if_neg (by omega)]

/-- Closing the innermost open node changes no node. -/
theorem Grows.close (hgrows : world.Grows root (inner :: level :: outer) []) :
    world.Grows root (level.add inner.tree :: outer) [] := by
  obtain ⟨hshows', hchildren', hholds', hshows, hchildren, hholds, houter⟩ := hgrows
  have hplace : nextNode root (level :: outer) =
      nextNode root outer + 1 + Tree.sizes level.done := nextNode_cons level
  refine ⟨hshows, ?_, ?_, houter⟩
  · rw [hchildren, hplace, Level.add, Tree.heads_append, List.append_nil]
    rfl
  · -- the closed tree begins where the complete ones of its parent end
    rw [Level.add, holdsAll_append, ← hplace]
    refine ⟨hholds, ?_⟩
    rw [HoldsAll, HoldsAll, Level.tree, Holds]
    exact ⟨⟨hshows', by rw [hchildren', List.append_nil], hholds'⟩, trivial⟩

/-- When the root alone is open, the tree is complete. -/
theorem Grows.holds (hgrows : world.Grows root [level] []) :
    world.Holds .null root level.tree := by
  obtain ⟨hshows, hchildren, hholds, _⟩ := hgrows
  rw [Level.tree, Holds]
  exact ⟨hshows, hchildren.trans (List.append_nil _), hholds⟩

end World

end Grows

/-! ## From stage to stage -/

namespace World.Parses

variable {world other : World} {id : HostId} {table : Table String Rule} {reading : Reading}
  {level inner : Level} {outer levels : List Level} {cell : NodeCell} {heading : Heading}

/-- A stage is about hosts, nodes and the lists of open nodes. -/
theorem congr {stage : Stage} (hparses : world.Parses id table stage)
    (hhosts : other.hosts = world.hosts) (hforest : other.forest = world.forest)
    (hstacks : other.openStacks = world.openStacks) : other.Parses id table stage where
  reads := hparses.reads.congr hhosts (by rw [hstacks])
  ruled := hparses.ruled.congr (by simp only [host, hhosts]) (by simp only [host, hhosts])
  grows := hparses.grows.congr fun node _ => by simp only [World.cell, hforest]
  size := hforest ▸ hparses.size
  opened := (congrArg (·.getD stage.reading.stack #[]) hstacks).trans hparses.opened

theorem setCursor (hparses : world.Parses id table ⟨reading, levels⟩) (cursor : Cursor) :
    (world.setCursor id cursor).Parses id table ⟨{ reading with cursor }, levels⟩ := by
  have hhost := host_setCursor cursor hparses.reads.plain.present
  exact
    { reads := hparses.reads.setCursor cursor
      ruled := hparses.ruled.congr (by rw [hhost]) (by rw [hhost])
      grows := hparses.grows.congr fun _ _ => rfl
      size := hparses.size
      opened := hparses.opened }

section Innermost

variable (hparses : world.Parses id table ⟨reading, level :: outer⟩)

include hparses

theorem top_lt : nextNode reading.root outer < world.forest.size := by
  have hsize : world.forest.size = nextNode reading.root (level :: outer) := hparses.size
  rw [hsize, nextNode_cons]
  omega

/-- The innermost open node is the one that parsing attaches to. -/
theorem innermost :
    world.Opened reading (openNodes reading.root outer) (nextNode reading.root outer) where
  items := hparses.opened
  plain :=
    { present := hparses.top_lt
      children := hparses.grows.1.children
      notes := hparses.grows.1.notes
      extras := hparses.grows.1.extras }

variable (hnew : cell.IsNew world.forest.size heading (.node (nextNode reading.root outer)))

include hnew

theorem openChild :
    ((world.addChild (nextNode reading.root outer) cell).openNode reading world.forest.size).Parses
      id table ⟨reading, ⟨heading, []⟩ :: level :: outer⟩ where
  reads := hparses.reads.congr rfl (by simp [openNode, addChild, changeItems, changeCell, addNode])
  ruled := hparses.ruled.congr rfl rfl
  grows := hparses.grows.addChild hparses.size hnew |>.congr fun _ _ => rfl
  size := by
    change (world.addChild _ cell).forest.size = _
    simp only [addChild, changeItems, changeCell, addNode, Forest.size_modify, Forest.size_add]
    exact congrArg (· + 1) hparses.size
  opened := by
    have hold : (world.addChild (nextNode reading.root outer) cell).items (.stack reading.stack) =
        openNodes reading.root (level :: outer) := hparses.opened
    have hthere : (world.addChild (nextNode reading.root outer) cell).HasList
        (.stack reading.stack) := hparses.reads.opened
    classical
    rw [openNode, items_changeItems, if_pos ⟨rfl, hthere⟩, hold, hparses.size]
    rfl

theorem addLeaf :
    (world.addChild (nextNode reading.root outer) cell).Parses id table
      ⟨reading, level.add (.leaf heading) :: outer⟩ where
  reads := hparses.reads.congr rfl rfl
  ruled := hparses.ruled.congr rfl rfl
  grows := (hparses.grows.addChild hparses.size hnew).close
  size := by
    simp only [addChild, changeItems, changeCell, addNode, Forest.size_modify, Forest.size_add]
    rw [hparses.size]
    exact (nextNode_close ⟨heading, []⟩ level).symm
  opened := hparses.opened

end Innermost

theorem close (hparses : world.Parses id table ⟨reading, inner :: level :: outer⟩) :
    (world.closeNode reading).Parses id table ⟨reading, level.add inner.tree :: outer⟩ where
  reads := hparses.reads.congr rfl (by simp [closeNode, changeItems])
  ruled := hparses.ruled.congr rfl rfl
  grows := hparses.grows.close.congr fun _ _ => rfl
  size := hparses.size.trans (nextNode_close inner level).symm
  opened := by
    have hthere : world.HasList (.stack reading.stack) := hparses.reads.opened
    classical
    rw [closeNode, items_changeItems, if_pos ⟨rfl, hthere⟩, hparses.opened]
    exact Array.pop_push

end World.Parses

end Rulebook
