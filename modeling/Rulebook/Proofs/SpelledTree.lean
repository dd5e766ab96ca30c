import Rulebook.Cursor
import Rulebook.Proofs.Quoting

/-!
# Trees as they are spelled

A tree of nodes as a whole: what each node is labelled, the text it holds, where it is, and the
nodes below it in their order. Its spelling has all of this between words and brackets that are
always the same, and it ends itself, so two trees that are spelled alike are one and the same; it
does not matter what their texts look like.
-/

namespace Rulebook

open Text

/-- A place as a location reports it. -/
structure Place where
  line : Int
  column : Int
  offset : Int
deriving Repr, DecidableEq

/-- A tree of nodes. A node that was never stamped has no position. -/
inductive NodeTree
  | node (label val : String) (position : Option (Place × Place)) (below : List NodeTree)

/-- A place as it is spelled. -/
def Place.spelled (place : Place) : List Char :=
  fixed "Location(line=" ++ (numeral place.line ++ (fixed ", column=" ++
    (numeral place.column ++ (fixed ", offset=" ++ (numeral place.offset ++ fixed ")")))))

/-- A position as it is spelled. -/
def spelledPosition : Option (Place × Place) → List Char
  | none => fixed "None"
  | some (start, stop) =>
    fixed "Span(start=" ++ (start.spelled ++ (fixed ", end=" ++ (stop.spelled ++ fixed ")")))

namespace NodeTree

/-- What a node is spelled like, given how the list of the nodes below it is. -/
def spelledNode (label val : String) (position : Option (Place × Place)) (below : List Char) :
    List Char :=
  fixed "Node(type=" ++ (quotedChars label.toList ++ (fixed ", val=" ++
    (quotedChars val.toList ++ (fixed ", position=" ++ (spelledPosition position ++
      (fixed ", nodes=" ++ (below ++ fixed ")")))))))

mutual

/-- A tree as it is spelled. -/
def spelled : NodeTree → List Char
  | .node label val position below =>
    spelledNode label val position ('[' :: ((fixed ", ").intercalate (spelledEach below) ++ [']']))

/-- Trees as each of them is spelled. -/
def spelledEach : List NodeTree → List (List Char)
  | [] => []
  | tree :: rest => spelled tree :: spelledEach rest

end

theorem spelledEach_eq_map (trees : List NodeTree) : spelledEach trees = trees.map spelled := by
  induction trees with
  | nil => rfl
  | cons tree rest ih => rw [spelledEach, ih, List.map_cons]

theorem spelled_node (label val : String) (position : Option (Place × Place))
    (below : List NodeTree) :
    (node label val position below).spelled =
      spelledNode label val position (listed spelled below) := by
  rw [spelled, spelledEach_eq_map, listed]

/-- What holds of a node if it holds of every node right below it holds of every tree. -/
theorem induction_on {motive : NodeTree → Prop}
    (hnode : ∀ label val position below, (∀ tree ∈ below, motive tree) →
      motive (node label val position below)) (tree : NodeTree) : motive tree := by
  refine @NodeTree.rec motive (fun below => ∀ tree ∈ below, motive tree) hnode ?_ ?_ tree
  · intro tree hmem
    exact absurd hmem List.not_mem_nil
  · intro first rest hfirst hrest tree hmem
    rcases List.mem_cons.mp hmem with rfl | hmem
    · exact hfirst
    · exact hrest tree hmem

end NodeTree

/-! ## Spellings end themselves -/

theorem Place.spelled_ends (place : Place) : EndsItself Place.spelled place := by
  obtain ⟨line, column, offset⟩ := place
  rintro ⟨line', column', offset'⟩ rest more hsame
  simp only [spelled, List.append_assoc] at hsame
  obtain ⟨rfl, hcolumns⟩ := numeral_ends (List.append_cancel_left hsame) rfl
  obtain ⟨rfl, hoffsets⟩ := numeral_ends hcolumns rfl
  obtain ⟨rfl, hmore⟩ := numeral_ends hoffsets rfl
  exact ⟨rfl, hmore⟩

theorem spelledPosition_ends (position : Option (Place × Place)) :
    EndsItself spelledPosition position := by
  intro other rest more hsame
  cases position with
  | none =>
      cases other with
      | none => exact ⟨rfl, List.append_cancel_left hsame⟩
      | some =>
          have hhead : some 'N' = some 'S' := congrArg List.head? hsame
          exact absurd hhead (by decide)
  | some span =>
      cases other with
      | none =>
          have hhead : some 'S' = some 'N' := congrArg List.head? hsame
          exact absurd hhead (by decide)
      | some span' =>
          obtain ⟨start, stop⟩ := span
          obtain ⟨start', stop'⟩ := span'
          simp only [spelledPosition, List.append_assoc] at hsame
          obtain ⟨rfl, hstop⟩ := start.spelled_ends.behind _ hsame
          obtain ⟨rfl, hend⟩ := stop.spelled_ends.behind _ hstop
          exact ⟨rfl, List.append_cancel_left hend⟩

namespace NodeTree

theorem spelled_cons (tree : NodeTree) : ∃ head tail, tree.spelled = head :: tail ∧ head ≠ ']' := by
  cases tree with
  | node label val position below =>
      rw [spelled_node]
      exact ⟨'N', _, rfl, by decide⟩

/-- Whatever stands behind a tree, it can be told which tree it was. -/
theorem spelled_ends (tree : NodeTree) : EndsItself spelled tree := by
  induction tree using induction_on with
  | hnode label val position below ih =>
      rintro ⟨label', val', position', below'⟩ rest more hsame
      simp only [spelled_node, spelledNode, List.append_assoc] at hsame
      obtain ⟨hlabel, hsame⟩ := (quotedChars_ends _).behind _ hsame
      obtain ⟨hval, hsame⟩ := (quotedChars_ends _).behind _ hsame
      obtain ⟨hposition, hsame⟩ := (spelledPosition_ends position).behind _ hsame
      obtain ⟨hbelow, hsame⟩ := (listed_ends ih spelled_cons).behind _ hsame
      rw [String.toList_inj.mp hlabel, String.toList_inj.mp hval, hposition, hbelow]
      exact ⟨rfl, List.append_cancel_left hsame⟩

/-- Trees that are spelled alike are the same. -/
theorem spelled_inj {tree other : NodeTree} : tree.spelled = other.spelled ↔ tree = other :=
  ⟨fun hsame => (spelled_ends tree).eq hsame, fun hsame => by rw [hsame]⟩

end NodeTree

end Rulebook
