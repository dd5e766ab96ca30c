import Mathlib.Data.List.Perm.Subperm
import Rulebook.World
import Rulebook.Proofs.SpelledTree

/-!
# Trees that nodes show

A node of the store shows a tree if its label and its value are texts, its position is null or a
span, and the nodes in its list of children show the trees below. Parents, notes and other
attributes do not come into it, and nodes can be shared, but what is shown is a finite tree: so no
node is below itself, and a tree is no deeper than there are nodes.
-/

namespace Rulebook

/-- Neither of two values is the other. -/
def Value.Apart (one other : Value) : Prop := one.same other = false ∧ other.same one = false

/-- Whether a value is one of those that a tree ends in. -/
def Value.isLeaf : Value → Bool
  | .null | .int _ | .text _ => true
  | _ => false

theorem Value.Apart.of_leaf {outer value : Value} (houter : outer.isLeaf = false)
    (hvalue : value.isLeaf = true) : outer.Apart value := by
  cases outer with
  | null | int | text => cases houter
  | _ =>
      cases value with
      | null | int | text => exact ⟨rfl, rfl⟩
      | _ => cases hvalue

/-- What the locations and spans with a serial number hold: two that have one number are one. -/
structure Marks where
  place : Nat → Place
  span : Nat → Place × Place

namespace Marks

variable {marks : Marks} {value value' : Value}

/-- A value is a location at a place. -/
def IsAt (marks : Marks) (value : Value) (place : Place) : Prop :=
  ∃ serial, value = .location serial (.int place.line) (.int place.column) (.int place.offset) ∧
    marks.place serial = place

/-- A value tells a position: it is null or a span from one place to another. -/
def Tells (marks : Marks) (value : Value) : Option (Place × Place) → Prop
  | none => value = .null
  | some (start, stop) => ∃ serial first last, value = .span serial first last ∧
      marks.span serial = (start, stop) ∧ marks.IsAt first start ∧ marks.IsAt last stop

theorem IsAt.eq_of_same {place place' : Place} (hat : marks.IsAt value place)
    (hat' : marks.IsAt value' place') (hsame : value.same value' = true) : place = place' := by
  obtain ⟨serial, rfl, rfl⟩ := hat
  obtain ⟨serial', rfl, rfl⟩ := hat'
  rw [beq_iff_eq.mp hsame]

theorem Tells.eq_of_same {position position' : Option (Place × Place)}
    (htells : marks.Tells value position) (htells' : marks.Tells value' position')
    (hsame : value.same value' = true) : position = position' := by
  cases position with
  | none =>
      cases position' with
      | none => rfl
      | some =>
          obtain ⟨serial, first, last, rfl, -⟩ := htells'
          rw [show value = .null from htells] at hsame
          cases hsame
  | some span =>
      obtain ⟨serial, first, last, rfl, hspan, -⟩ := htells
      cases position' with
      | none =>
          rw [show value' = .null from htells'] at hsame
          cases hsame
      | some span' =>
          obtain ⟨serial', first', last', rfl, hspan', -⟩ := htells'
          have heq : marks.span serial = marks.span serial' := by rw [beq_iff_eq.mp hsame]
          rw [hspan, hspan'] at heq
          exact congrArg some heq

theorem Tells.same_self {position : Option (Place × Place)} (htells : marks.Tells value position) :
    value.same value = true := by
  cases position with
  | none => rw [show value = .null from htells]; rfl
  | some =>
      obtain ⟨serial, first, last, rfl, -⟩ := htells
      exact beq_self_eq_true serial

theorem Tells.unique {position position' : Option (Place × Place)}
    (htells : marks.Tells value position) (htells' : marks.Tells value position') :
    position = position' :=
  htells.eq_of_same htells' htells.same_self

end Marks

namespace NodeTree

mutual

/-- How many nodes are above one another in a tree. -/
def depth : NodeTree → Nat
  | .node _ _ _ below => depths below + 1

/-- How many nodes are above one another in the deepest of some trees. -/
def depths : List NodeTree → Nat
  | [] => 0
  | tree :: rest => max tree.depth (depths rest)

end

@[simp] theorem depth_node (label val : String) (position : Option (Place × Place))
    (below : List NodeTree) : (node label val position below).depth = depths below + 1 := by
  rw [depth]

theorem depth_le_depths {tree : NodeTree} {trees : List NodeTree} (hmem : tree ∈ trees) :
    tree.depth ≤ depths trees := by
  induction trees with
  | nil => cases hmem
  | cons first rest ih =>
      rw [depths]
      rcases List.mem_cons.mp hmem with rfl | hmem
      · exact Nat.le_max_left _ _
      · exact Nat.le_trans (ih hmem) (Nat.le_max_right _ _)

/-- Unless there is none, one of the trees is the deepest. -/
theorem exists_deepest (trees : List NodeTree) :
    trees = [] ∨ ∃ tree ∈ trees, tree.depth = depths trees := by
  induction trees with
  | nil => exact Or.inl rfl
  | cons first rest ih =>
      refine Or.inr ?_
      rw [depths]
      by_cases hfirst : depths rest ≤ first.depth
      · exact ⟨first, List.mem_cons_self, (Nat.max_eq_left hfirst).symm⟩
      · rcases ih with rfl | ⟨tree, hmem, hdepth⟩
        · exact absurd (Nat.zero_le _) hfirst
        · exact ⟨tree, List.mem_cons_of_mem _ hmem, by omega⟩

end NodeTree

namespace World

mutual

/-- A value is a node that shows a tree. -/
def Shows (world : World) (marks : Marks) (value : Value) : NodeTree → Prop
  | .node label val position below => ∃ id children, value = .node id ∧
      (world.cell id).label = .text label ∧ (world.cell id).val = .text val ∧
      marks.Tells (world.cell id).position position ∧
      (world.cell id).children = .list children ∧
      world.ShowsAll marks (world.items children).toList below

/-- Values are nodes that show trees, one each. -/
def ShowsAll (world : World) (marks : Marks) (values : List Value) : List NodeTree → Prop
  | [] => values = []
  | tree :: trees => ∃ value rest, values = value :: rest ∧
      world.Shows marks value tree ∧ world.ShowsAll marks rest trees

end

variable {world : World} {marks : Marks} {value : Value} {tree : NodeTree}

theorem shows_node {label val : String} {position : Option (Place × Place)}
    {below : List NodeTree} :
    world.Shows marks value (.node label val position below) ↔
      ∃ id children, value = .node id ∧ (world.cell id).label = .text label ∧
        (world.cell id).val = .text val ∧ marks.Tells (world.cell id).position position ∧
        (world.cell id).children = .list children ∧
        world.ShowsAll marks (world.items children).toList below := Iff.rfl

theorem showsAll_nil {values : List Value} : world.ShowsAll marks values [] ↔ values = [] := Iff.rfl

theorem showsAll_cons {values : List Value} {trees : List NodeTree} :
    world.ShowsAll marks values (tree :: trees) ↔ ∃ value rest, values = value :: rest ∧
      world.Shows marks value tree ∧ world.ShowsAll marks rest trees := Iff.rfl

theorem ShowsAll.length_eq {values : List Value} {trees : List NodeTree}
    (hshows : world.ShowsAll marks values trees) : values.length = trees.length := by
  induction trees generalizing values with
  | nil =>
      rw [showsAll_nil.mp hshows]
      rfl
  | cons tree trees ih =>
      rw [showsAll_cons] at hshows
      obtain ⟨value, rest, rfl, -, hrest⟩ := hshows
      rw [List.length_cons, List.length_cons, ih hrest]

theorem ShowsAll.exists_value {values : List Value} {trees : List NodeTree}
    (hshows : world.ShowsAll marks values trees) (hmem : tree ∈ trees) :
    ∃ value, world.Shows marks value tree := by
  induction trees generalizing values with
  | nil => cases hmem
  | cons first trees ih =>
      rw [showsAll_cons] at hshows
      obtain ⟨value, rest, rfl, hfirst, hrest⟩ := hshows
      rcases List.mem_cons.mp hmem with rfl | hmem
      · exact ⟨value, hfirst⟩
      · exact ih hrest hmem

/-! ## One node shows one tree -/

theorem ShowsAll.unique {values : List Value} {trees trees' : List NodeTree}
    (hunique : ∀ tree ∈ trees, ∀ value tree', world.Shows marks value tree →
      world.Shows marks value tree' → tree = tree')
    (hshows : world.ShowsAll marks values trees) (hshows' : world.ShowsAll marks values trees') :
    trees = trees' := by
  induction trees generalizing values trees' with
  | nil =>
      have hlength := hshows.length_eq.symm.trans hshows'.length_eq
      exact (List.eq_nil_of_length_eq_zero hlength.symm).symm
  | cons tree trees ih =>
      cases trees' with
      | nil => cases hshows.length_eq.symm.trans hshows'.length_eq
      | cons tree' trees' =>
          rw [showsAll_cons] at hshows hshows'
          obtain ⟨value, rest, rfl, hfirst, hrest⟩ := hshows
          obtain ⟨_, _, heq, hfirst', hrest'⟩ := hshows'
          cases heq
          rw [hunique tree List.mem_cons_self value tree' hfirst hfirst',
            ih (fun tree hmem => hunique tree (List.mem_cons_of_mem _ hmem)) hrest hrest']

theorem Shows.unique : ∀ {value : Value} {tree' : NodeTree}, world.Shows marks value tree →
    world.Shows marks value tree' → tree = tree' := by
  induction tree using NodeTree.induction_on with
  | hnode label val position below ih =>
      rintro value ⟨label', val', position', below'⟩ hshows hshows'
      rw [shows_node] at hshows hshows'
      obtain ⟨id, children, rfl, hlabel, hval, hposition, hchildren, hbelow⟩ := hshows
      obtain ⟨_, children', heq, hlabel', hval', hposition', hchildren', hbelow'⟩ := hshows'
      cases heq
      rw [hlabel, Value.text.injEq] at hlabel'
      rw [hval, Value.text.injEq] at hval'
      rw [hchildren, Value.list.injEq] at hchildren'
      subst hchildren'
      rw [hlabel', hval', hposition.unique hposition',
        hbelow.unique (fun tree hmem _ _ hone hother => ih tree hmem hone hother) hbelow']

/-- What shows a tree is in the store. -/
theorem Shows.inside {id : NodeId} (hshows : world.Shows marks (.node id) tree) :
    id < world.forest.size := by
  obtain ⟨label, val, position, below⟩ := tree
  rw [shows_node] at hshows
  obtain ⟨_, children, heq, hlabel, -⟩ := hshows
  cases heq
  by_contra hid
  have hdefault : world.cell id = default := by
    simp only [World.cell, Forest.cell, Array.getD_eq_getD_getElem?]
    rw [Array.getElem?_eq_none (Nat.le_of_not_lt hid)]
    rfl
  rw [hdefault] at hlabel
  cases hlabel

/-! ## Trees are no deeper than the store -/

/-- Down the deepest branch of a tree there are as many different nodes as it is deep. -/
theorem Shows.exists_nodes (tree : NodeTree) : ∀ {value : Value}, world.Shows marks value tree →
    ∃ ids : List NodeId, ids.length = tree.depth ∧ ids.Nodup ∧ ∀ id ∈ ids, ∃ shown,
      world.Shows marks (.node id) shown ∧ shown.depth ≤ tree.depth := by
  induction tree using NodeTree.induction_on with
  | hnode label val position below ih =>
      intro value hshows
      have hself := hshows
      rw [shows_node] at hshows
      obtain ⟨id, children, rfl, -, -, -, -, hbelow⟩ := hshows
      have hbranch : ∃ ids : List NodeId, ids.length = NodeTree.depths below ∧ ids.Nodup ∧
          ∀ id ∈ ids, ∃ shown, world.Shows marks (.node id) shown ∧
            shown.depth ≤ NodeTree.depths below := by
        rcases NodeTree.exists_deepest below with rfl | ⟨tree, hmem, hdepth⟩
        · exact ⟨[], rfl, List.nodup_nil, fun id hid => absurd hid List.not_mem_nil⟩
        · obtain ⟨value, hvalue⟩ := hbelow.exists_value hmem
          rw [← hdepth]
          exact ih tree hmem hvalue
      obtain ⟨ids, hlength, hnodup, hids⟩ := hbranch
      refine ⟨id :: ids, ?_, List.nodup_cons.mpr ⟨fun hid => ?_, hnodup⟩, fun other hother => ?_⟩
      · rw [List.length_cons, hlength, NodeTree.depth_node]
      · -- a node further down shows something less deep
        obtain ⟨shown, hshown, hless⟩ := hids id hid
        rw [hshown.unique hself, NodeTree.depth_node] at hless
        omega
      · rcases List.mem_cons.mp hother with rfl | hother
        · exact ⟨_, hself, Nat.le_refl _⟩
        · obtain ⟨shown, hshown, hless⟩ := hids other hother
          exact ⟨shown, hshown, by rw [NodeTree.depth_node]; omega⟩

theorem Shows.depth_le (hshows : world.Shows marks value tree) :
    tree.depth ≤ world.forest.size := by
  obtain ⟨ids, hlength, hnodup, hids⟩ := Shows.exists_nodes tree hshows
  have hinside : ids ⊆ List.range world.forest.size := by
    intro id hid
    obtain ⟨shown, hshown, -⟩ := hids id hid
    exact List.mem_range.mpr hshown.inside
  have hle := (hnodup.subperm hinside).length_le
  rwa [hlength, List.length_range] at hle

/-- Walking down a tree, two steps for each node and three more for a position, stays within what
the world allows. -/
theorem Shows.depth_lt_extent (hshows : world.Shows marks value tree) :
    2 * tree.depth + 2 ≤ world.extent + 1 := by
  have hdepth := hshows.depth_le
  have hserial : world.extent ≥ (world.forest.size * 2 + 2) * 2 := by
    rw [extent]
    exact Nat.mul_le_mul (by omega) (by omega)
  omega

/-! ## What is above a node -/

/-- A value is a node or a list that shows more than a bound. A list counts one more than twice how
deep it is, so that it is between a node and the nodes below. -/
def Above (world : World) (marks : Marks) (bound : Nat) : Value → Prop
  | .node id => ∃ tree, world.Shows marks (.node id) tree ∧ bound < 2 * tree.depth
  | .list ref => ∃ trees, world.ShowsAll marks (world.items ref).toList trees ∧
      bound < 2 * NodeTree.depths trees + 1
  | _ => False

theorem Above.mono {bound less : Nat} (habove : world.Above marks bound value)
    (hless : less ≤ bound) : world.Above marks less value := by
  cases value with
  | node id =>
      obtain ⟨tree, hshows, hbound⟩ := habove
      exact ⟨tree, hshows, by omega⟩
  | list ref =>
      obtain ⟨trees, hshows, hbound⟩ := habove
      exact ⟨trees, hshows, by omega⟩
  | _ => exact habove

theorem Above.isLeaf {bound : Nat} (habove : world.Above marks bound value) :
    value.isLeaf = false := by
  cases value with
  | node | list => rfl
  | _ => exact absurd habove not_false

theorem Above.apart_node {bound : Nat} {id : NodeId} (habove : world.Above marks bound value)
    (hshows : world.Shows marks (.node id) tree) (hbound : 2 * tree.depth ≤ bound) :
    value.Apart (.node id) := by
  cases value with
  | node other =>
      have hne : other ≠ id := by
        rintro rfl
        obtain ⟨tree', hshows', hdepth⟩ := habove
        rw [hshows'.unique hshows] at hdepth
        omega
      exact ⟨beq_false_of_ne hne, beq_false_of_ne hne.symm⟩
  | list => exact ⟨rfl, rfl⟩
  | _ => exact absurd habove not_false

theorem Above.apart_list {bound : Nat} {ref : ListRef} {trees : List NodeTree}
    (habove : world.Above marks bound value)
    (hshows : world.ShowsAll marks (world.items ref).toList trees)
    (hbound : 2 * NodeTree.depths trees + 1 ≤ bound) : value.Apart (.list ref) := by
  cases value with
  | list other =>
      have hne : other ≠ ref := by
        rintro rfl
        obtain ⟨trees', hshows', hdepth⟩ := habove
        rw [hshows'.unique (fun _ _ _ _ hone hother => hone.unique hother) hshows] at hdepth
        omega
      exact ⟨beq_false_of_ne hne, beq_false_of_ne hne.symm⟩
  | node => exact ⟨rfl, rfl⟩
  | _ => exact absurd habove not_false

theorem Above.apart_other {bound : Nat} {other : Value} (habove : world.Above marks bound value)
    (hnode : ∀ id, other ≠ .node id) (hlist : ∀ ref, other ≠ .list ref) : value.Apart other := by
  cases value with
  | node =>
      cases other with
      | node id => exact absurd rfl (hnode id)
      | _ => exact ⟨rfl, rfl⟩
  | list =>
      cases other with
      | list ref => exact absurd rfl (hlist ref)
      | _ => exact ⟨rfl, rfl⟩
  | _ => exact absurd habove not_false

theorem Above.apart_location {bound serial : Nat} {line column offset : Value}
    (habove : world.Above marks bound value) :
    value.Apart (.location serial line column offset) :=
  habove.apart_other (by simp) (by simp)

theorem Above.apart_span {bound serial : Nat} {first last : Value}
    (habove : world.Above marks bound value) : value.Apart (.span serial first last) :=
  habove.apart_other (by simp) (by simp)

end World

end Rulebook
