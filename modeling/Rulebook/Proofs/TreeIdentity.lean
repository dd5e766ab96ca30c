import Rulebook.World.Equality
import Rulebook.World.Spelling
import Rulebook.Proofs.ShownTree

/-!
# Equality and spelling of trees

Of nodes that show trees it can always be told whether they are equal, and what they are spelled
like: neither the comparison nor the spelling comes back to a node that it is inside of. Nodes are
equal exactly if they show the same tree, and so they are exactly if they are spelled alike.
-/

namespace Rulebook

variable {world : World} {marks : Marks} {value value' : Value} {fuel : Nat}

/-! ## Spelling -/

section Spelling

variable {path : List Value}

theorem any_same_eq_false (hapart : ∀ outer ∈ path, outer.Apart value) :
    path.any value.same = false := by
  rw [List.any_eq_false]
  intro outer hmem
  rw [(hapart outer hmem).2]
  exact Bool.false_ne_true

theorem World.spellWithin_place {place : Place} (hat : marks.IsAt value place)
    (hapart : ∀ outer ∈ path, outer.Apart value) :
    world.spellWithin (fuel + 2) path value = String.ofList place.spelled := by
  have hrepeats := any_same_eq_false hapart
  obtain ⟨serial, rfl, -⟩ := hat
  simp only [World.spellWithin_location, World.spellWithin_int, hrepeats, Bool.false_eq_true,
    if_false, Place.spelled, String.ofList_append, Text.ofList_fixed, Text.ofList_numeral,
    String.append_assoc]

/-- A position has neither nodes nor lists inside, so it is not inside itself. -/
theorem World.spellWithin_position {position : Option (Place × Place)} {bound : Nat}
    (htells : marks.Tells value position) (habove : ∀ outer ∈ path, world.Above marks bound outer) :
    world.spellWithin (fuel + 3) path value = String.ofList (spelledPosition position) := by
  cases position with
  | none =>
      rw [show value = .null from htells, World.spellWithin_null, spelledPosition,
        Text.ofList_fixed]
  | some span =>
      obtain ⟨serial, first, last, rfl, -, hstart, hstop⟩ := htells
      have hrepeats : path.any (Value.span serial first last).same = false :=
        any_same_eq_false fun outer hmem => (habove outer hmem).apart_span
      have hinside {location : Value} {place : Place} (hat : marks.IsAt location place) :
          ∀ outer ∈ .span serial first last :: path, outer.Apart location := by
        obtain ⟨_, rfl, -⟩ := hat
        intro outer hmem
        rcases List.mem_cons.mp hmem with rfl | hmem
        · exact ⟨rfl, rfl⟩
        · exact (habove outer hmem).apart_location
      rw [World.spellWithin_span]
      simp only [hrepeats, Bool.false_eq_true, if_false,
        World.spellWithin_place hstart (hinside hstart),
        World.spellWithin_place hstop (hinside hstop), spelledPosition, String.ofList_append,
        Text.ofList_fixed, String.append_assoc]

theorem joined_ofList (parts : List (List Char)) :
    World.joined (parts.map String.ofList) =
      String.ofList ((Text.fixed ", ").intercalate parts) := by
  have hparts : parts.map (String.toList ∘ String.ofList) = parts := by
    simp [Function.comp_def]
  apply String.toList_inj.mp
  rw [World.joined, String.toList_intercalate, List.map_map, hparts]
  exact String.toList_ofList.symm

theorem World.ShowsAll.map_eq {spell : Value → String} {values : List Value}
    {trees : List NodeTree}
    (hspell : ∀ tree ∈ trees, ∀ value, world.Shows marks value tree →
      spell value = String.ofList tree.spelled)
    (hshows : world.ShowsAll marks values trees) :
    values.map spell = (trees.map NodeTree.spelled).map String.ofList := by
  induction trees generalizing values with
  | nil =>
      rw [World.showsAll_nil.mp hshows]
      rfl
  | cons tree trees ih =>
      rw [World.showsAll_cons] at hshows
      obtain ⟨value, rest, rfl, hfirst, hrest⟩ := hshows
      rw [List.map_cons, hspell tree List.mem_cons_self value hfirst,
        ih (fun tree hmem => hspell tree (List.mem_cons_of_mem _ hmem)) hrest]
      rfl

theorem World.spellWithin_list {ref : ListRef} {trees : List NodeTree}
    (hshows : world.ShowsAll marks (world.items ref).toList trees)
    (hapart : ∀ outer ∈ path, outer.Apart (.list ref))
    (hspell : ∀ tree ∈ trees, ∀ value, world.Shows marks value tree →
      world.spellWithin fuel (.list ref :: path) value = String.ofList tree.spelled) :
    world.spellWithin (fuel + 1) path (.list ref) =
      String.ofList (Text.listed NodeTree.spelled trees) := by
  have hrepeats := any_same_eq_false hapart
  have hopen : Text.listed NodeTree.spelled trees =
      Text.fixed "[" ++ ((Text.fixed ", ").intercalate (trees.map NodeTree.spelled) ++
        Text.fixed "]") := rfl
  rw [World.spellWithin_items]
  simp only [hrepeats, Bool.false_eq_true, if_false, hshows.map_eq hspell, joined_ofList, hopen,
    String.ofList_append, Text.ofList_fixed, String.append_assoc]

/-- What a node is spelled like inside of what is above it. -/
theorem World.Shows.spellWithin (tree : NodeTree) :
    ∀ {value : Value} {fuel : Nat} {path : List Value}, world.Shows marks value tree →
      2 * tree.depth + 2 ≤ fuel →
      (∀ outer ∈ path, world.Above marks (2 * tree.depth) outer) →
      world.spellWithin fuel path value = String.ofList tree.spelled := by
  induction tree using NodeTree.induction_on with
  | hnode label val position below ih =>
      intro value fuel path hshows hfuel habove
      have hself := hshows
      rw [World.shows_node] at hshows
      obtain ⟨id, children, rfl, hlabel, hval, hposition, hchildren, hbelow⟩ := hshows
      rw [NodeTree.depth_node] at hfuel habove
      obtain ⟨fuel, rfl⟩ : ∃ less, fuel = less + 4 := ⟨fuel - 4, by omega⟩
      have hrepeats : path.any (Value.node id).same = false :=
        any_same_eq_false fun outer hmem =>
          (habove outer hmem).apart_node hself (Nat.le_of_eq (by rw [NodeTree.depth_node]))
      -- inside of the node, which is above its list of children, which is above the children
      have hinside : ∀ outer ∈ .node id :: path,
          world.Above marks (2 * NodeTree.depths below + 1) outer := by
        intro outer hmem
        rcases List.mem_cons.mp hmem with rfl | hmem
        · exact ⟨_, hself, by rw [NodeTree.depth_node]; omega⟩
        · exact (habove outer hmem).mono (by omega)
      have hlist : world.spellWithin (fuel + 3) (.node id :: path) (.list children) =
          String.ofList (Text.listed NodeTree.spelled below) := by
        refine World.spellWithin_list hbelow
          (fun outer hmem => (hinside outer hmem).apart_list hbelow (Nat.le_refl _)) ?_
        intro tree hmem value hshows
        have hdepth := NodeTree.depth_le_depths hmem
        refine ih tree hmem hshows (by omega) fun outer houter => ?_
        rcases List.mem_cons.mp houter with rfl | houter
        · exact ⟨below, hbelow, by omega⟩
        · exact (hinside outer houter).mono (by omega)
      rw [World.spellWithin_node]
      simp only [hrepeats, Bool.false_eq_true, if_false, hlabel, hval, hchildren, hlist,
        World.spellWithin_text, World.spellWithin_position hposition hinside,
        NodeTree.spelled_node, NodeTree.spelledNode, String.ofList_append, Text.ofList_fixed,
        String.append_assoc, Text.quoted]

/-- A node is spelled like the tree it shows. -/
theorem World.Shows.spell {tree : NodeTree} (hshows : world.Shows marks value tree) :
    world.spell value = String.ofList tree.spelled :=
  hshows.spellWithin tree hshows.depth_lt_extent fun _ hmem => absurd hmem List.not_mem_nil

end Spelling

/-! ## Equality -/

/-- A comparison finds out whether something is so. -/
def Decides (answer : Option Bool) (fact : Prop) : Prop :=
  ∃ verdict, answer = some verdict ∧ (verdict = true ↔ fact)

section Decides

variable {fact fact' : Prop} {answer : Option Bool}

theorem Decides.yes (hfact : fact) : Decides (some true) fact :=
  ⟨true, rfl, fun _ => hfact, fun _ => rfl⟩

theorem Decides.no (hfact : ¬fact) : Decides (some false) fact :=
  ⟨false, rfl, fun h => (Bool.false_ne_true h).elim, fun h => (hfact h).elim⟩

theorem Decides.congr (hdecides : Decides answer fact) (hiff : fact ↔ fact') :
    Decides answer fact' := by
  obtain ⟨verdict, hanswer, hverdict⟩ := hdecides
  exact ⟨verdict, hanswer, hverdict.trans hiff⟩

variable {equal : Value → Value → Option Bool} {one other : Value} {rest more : List Value}

theorem Decides.nil (equal : Value → Value → Option Bool) :
    Decides (World.equalLists equal [] []) True :=
  .yes trivial

theorem Decides.cons (hfirst : Decides (equal one other) fact)
    (hrest : Decides (World.equalLists equal rest more) fact') :
    Decides (World.equalLists equal (one :: rest) (other :: more)) (fact ∧ fact') := by
  obtain ⟨verdict, hanswer, hverdict⟩ := hfirst
  rw [World.equalLists, hanswer]
  cases verdict with
  | true => exact hrest.congr ⟨fun h => ⟨hverdict.mp rfl, h⟩, fun h => h.2⟩
  | false => exact .no fun h => Bool.false_ne_true (hverdict.mpr h.1)

theorem Decides.items (hlength : rest.length = more.length)
    (hlists : Decides (World.equalLists equal rest more) fact) :
    Decides (World.equalItems equal rest more) fact := by
  rwa [World.equalItems, if_pos hlength]

end Decides

theorem Text.Decimal.coefficient_ofInt (number : Int) :
    (Text.Decimal.ofInt number).coefficient = number := by
  rw [Text.Decimal.ofInt, Text.Decimal.coefficient]
  by_cases hnegative : number < 0
  · simp only [hnegative, decide_true, if_true]
    omega
  · simp only [hnegative, decide_false, Bool.false_eq_true, if_false]
    omega

theorem Text.Decimal.sameNumber_ofInt (one other : Int) :
    (Text.Decimal.ofInt one).sameNumber (.ofInt other) = (one == other) := by
  rw [Text.Decimal.sameNumber, Text.Decimal.coefficient_ofInt, Text.Decimal.coefficient_ofInt]
  simp [Text.Decimal.ofInt]

section Equality

variable {path : List (Value × Value)} {fact : Prop}

/-- Values of the same kind that are not inside themselves are compared by what is inside, unless
they are the same. -/
theorem World.equalWithin_decides (inside : Option Bool)
    (hstep : world.equalWithin (fuel + 1) path value value' =
      if value.same value' = true then some true
      else if (path.any fun pair => pair.1.same value && pair.2.same value') = true then none
      else inside)
    (hapart : ∀ pair ∈ path, pair.1.Apart value) (hsame : value.same value' = true → fact)
    (hinside : value.same value' = false → Decides inside fact) :
    Decides (world.equalWithin (fuel + 1) path value value') fact := by
  have hrepeats : (path.any fun pair => pair.1.same value && pair.2.same value') = false := by
    rw [List.any_eq_false]
    intro pair hmem
    rw [(hapart pair hmem).1, Bool.false_and]
    exact Bool.false_ne_true
  rw [hstep, hrepeats, if_neg Bool.false_ne_true]
  split
  next h => exact .yes (hsame h)
  next h => exact hinside (eq_false_of_ne_true h)

/-- What is compared inside of something that is not a leaf is not inside of a leaf either. -/
theorem no_leaf_cons {pair : Value × Value} (hleaves : ∀ pair ∈ path, pair.1.isLeaf = false)
    (hpair : pair.1.isLeaf = false) : ∀ other ∈ pair :: path, other.1.isLeaf = false :=
  List.forall_mem_cons.mpr ⟨hpair, hleaves⟩

section Leaves

variable (hleaves : ∀ pair ∈ path, pair.1.isLeaf = false)

include hleaves

theorem World.equalWithin_text {text text' : String} :
    Decides (world.equalWithin (fuel + 1) path (.text text) (.text text')) (text = text') :=
  equalWithin_decides (some false) rfl (fun pair hmem => .of_leaf (hleaves pair hmem) rfl)
    beq_iff_eq.mp fun hother => .no (beq_eq_false_iff_ne.mp hother)

theorem World.equalWithin_int {number number' : Int} :
    Decides (world.equalWithin (fuel + 1) path (.int number) (.int number'))
      (number = number') := by
  refine equalWithin_decides (some ((Text.Decimal.ofInt number).sameNumber (.ofInt number'))) rfl
    (fun pair hmem => .of_leaf (hleaves pair hmem) rfl) beq_iff_eq.mp fun _ => ⟨_, rfl, ?_⟩
  rw [Text.Decimal.sameNumber_ofInt, beq_iff_eq]

theorem World.equalWithin_place {place place' : Place} (hat : marks.IsAt value place)
    (hat' : marks.IsAt value' place') (hapart : ∀ pair ∈ path, pair.1.Apart value) :
    Decides (world.equalWithin (fuel + 2) path value value') (place = place') := by
  have hsame := hat.eq_of_same hat'
  obtain ⟨serial, rfl, -⟩ := hat
  obtain ⟨serial', rfl, -⟩ := hat'
  refine equalWithin_decides _ rfl hapart hsame fun _ => ?_
  refine .congr (.items rfl (.cons (equalWithin_int ?_) (.cons (equalWithin_int ?_)
    (.cons (equalWithin_int ?_) (.nil _))))) ?_
  · exact no_leaf_cons hleaves rfl
  · exact no_leaf_cons hleaves rfl
  · exact no_leaf_cons hleaves rfl
  · rw [and_true, Place.mk.injEq]

end Leaves

theorem World.equalWithin_position {position position' : Option (Place × Place)} {bound : Nat}
    (htells : marks.Tells value position) (htells' : marks.Tells value' position')
    (habove : ∀ pair ∈ path, world.Above marks bound pair.1) :
    Decides (world.equalWithin (fuel + 3) path value value') (position = position') := by
  have hsame := htells.eq_of_same htells'
  have hleaves : ∀ pair ∈ path, pair.1.isLeaf = false := fun pair hmem => (habove pair hmem).isLeaf
  cases position with
  | none =>
      have hapart : ∀ pair ∈ path, pair.1.Apart value := fun pair hmem =>
        .of_leaf (hleaves pair hmem) (by rw [show value = .null from htells]; rfl)
      cases position' with
      | none =>
          cases htells
          cases htells'
          exact equalWithin_decides (some false) rfl hapart hsame fun h => nomatch h
      | some =>
          cases htells
          obtain ⟨serial', first', last', rfl, -⟩ := htells'
          exact equalWithin_decides (some false) rfl hapart hsame fun _ => .no nofun
  | some span =>
      obtain ⟨serial, first, last, rfl, -, hstart, hstop⟩ := htells
      have hapart : ∀ pair ∈ path, pair.1.Apart (.span serial first last) := fun pair hmem =>
        (habove pair hmem).apart_span
      cases position' with
      | none =>
          cases htells'
          exact equalWithin_decides (some false) rfl hapart hsame fun _ => .no nofun
      | some span' =>
          obtain ⟨serial', first', last', rfl, -, hstart', hstop'⟩ := htells'
          have hplaces {location : Value} {place : Place} (hat : marks.IsAt location place) :
              ∀ pair ∈ (Value.span serial first last, Value.span serial' first' last') :: path,
                pair.1.Apart location := by
            obtain ⟨_, rfl, -⟩ := hat
            exact List.forall_mem_cons.mpr ⟨⟨rfl, rfl⟩, fun pair hmem =>
              (habove pair hmem).apart_location⟩
          refine equalWithin_decides _ rfl hapart hsame fun _ => ?_
          refine .congr (.items rfl
            (.cons (equalWithin_place ?_ hstart hstart' (hplaces hstart))
              (.cons (equalWithin_place ?_ hstop hstop' (hplaces hstop)) (.nil _)))) ?_
          · exact no_leaf_cons hleaves rfl
          · exact no_leaf_cons hleaves rfl
          · rw [and_true, Option.some.injEq, Prod.ext_iff]

/-- Nodes side by side are equal exactly if they show the same trees. -/
theorem World.ShowsAll.equalLists {equal : Value → Value → Option Bool}
    {values values' : List Value} {trees trees' : List NodeTree}
    (hequal : ∀ tree ∈ trees, ∀ {value value' tree'}, world.Shows marks value tree →
      world.Shows marks value' tree' → Decides (equal value value') (tree = tree'))
    (hshows : world.ShowsAll marks values trees) (hshows' : world.ShowsAll marks values' trees')
    (hlength : trees.length = trees'.length) :
    Decides (World.equalLists equal values values') (trees = trees') := by
  induction trees generalizing values values' trees' with
  | nil =>
      obtain rfl := List.eq_nil_of_length_eq_zero hlength.symm
      rw [World.showsAll_nil.mp hshows, World.showsAll_nil.mp hshows']
      exact (Decides.nil equal).congr (iff_of_true trivial rfl)
  | cons tree trees ih =>
      cases trees' with
      | nil => cases hlength
      | cons tree' trees' =>
          rw [World.showsAll_cons] at hshows hshows'
          obtain ⟨value, rest, rfl, hfirst, hrest⟩ := hshows
          obtain ⟨value', rest', rfl, hfirst', hrest'⟩ := hshows'
          have hothers := ih (fun tree hmem => hequal tree (List.mem_cons_of_mem _ hmem)) hrest
            hrest' (Nat.succ.inj hlength)
          exact ((hequal tree List.mem_cons_self hfirst hfirst').cons hothers).congr
            (by rw [List.cons.injEq])

theorem World.equalWithin_list {ref ref' : ListRef} {trees trees' : List NodeTree}
    (hshows : world.ShowsAll marks (world.items ref).toList trees)
    (hshows' : world.ShowsAll marks (world.items ref').toList trees')
    (hapart : ∀ pair ∈ path, pair.1.Apart (.list ref))
    (hequal : ∀ tree ∈ trees, ∀ {value value' tree'}, world.Shows marks value tree →
      world.Shows marks value' tree' →
      Decides (world.equalWithin fuel ((.list ref, .list ref') :: path) value value')
        (tree = tree')) :
    Decides (world.equalWithin (fuel + 1) path (.list ref) (.list ref')) (trees = trees') := by
  refine equalWithin_decides _ rfl hapart (fun hsame => ?_) fun _ => ?_
  · obtain rfl := beq_iff_eq.mp hsame
    exact hshows.unique (fun _ _ _ _ hone hother => hone.unique hother) hshows'
  · change Decides (World.equalItems _ _ _) _
    by_cases hlength : trees.length = trees'.length
    · refine .items ?_ (hshows.equalLists hequal hshows' hlength)
      rw [hshows.length_eq, hshows'.length_eq, hlength]
    · rw [World.equalItems, hshows.length_eq, hshows'.length_eq, if_neg hlength]
      exact .no fun heq => hlength (by rw [heq])

/-- Whether nodes are equal, inside of a comparison of what is above them. -/
theorem World.Shows.equalWithin (tree : NodeTree) :
    ∀ {value value' : Value} {tree' : NodeTree} {fuel : Nat} {path : List (Value × Value)},
      world.Shows marks value tree → world.Shows marks value' tree' →
      2 * tree.depth + 2 ≤ fuel →
      (∀ pair ∈ path, world.Above marks (2 * tree.depth) pair.1) →
      Decides (world.equalWithin fuel path value value') (tree = tree') := by
  induction tree using NodeTree.induction_on with
  | hnode label val position below ih =>
      rintro value value' ⟨label', val', position', below'⟩ fuel path hshows hshows' hfuel habove
      have hself := hshows
      have hself' := hshows'
      rw [World.shows_node] at hshows hshows'
      obtain ⟨id, children, rfl, hlabel, hval, hposition, hchildren, hbelow⟩ := hshows
      obtain ⟨id', children', rfl, hlabel', hval', hposition', hchildren', hbelow'⟩ := hshows'
      rw [NodeTree.depth_node] at hfuel habove
      obtain ⟨fuel, rfl⟩ : ∃ less, fuel = less + 4 := ⟨fuel - 4, by omega⟩
      have hapart : ∀ pair ∈ path, pair.1.Apart (.node id) := fun pair hmem =>
        (habove pair hmem).apart_node hself (Nat.le_of_eq (by rw [NodeTree.depth_node]))
      -- inside of the node, which is above its list of children, which is above the children
      have hinside : ∀ pair ∈ (Value.node id, Value.node id') :: path,
          world.Above marks (2 * NodeTree.depths below + 1) pair.1 := by
        refine List.forall_mem_cons.mpr ⟨?_, fun pair hmem => (habove pair hmem).mono (by omega)⟩
        exact ⟨_, hself, by rw [NodeTree.depth_node]; omega⟩
      have hleaves : ∀ pair ∈ (Value.node id, Value.node id') :: path, pair.1.isLeaf = false :=
        fun pair hmem => (hinside pair hmem).isLeaf
      have hlist : Decides (world.equalWithin (fuel + 3) ((.node id, .node id') :: path)
          (.list children) (.list children')) (below = below') := by
        refine World.equalWithin_list hbelow hbelow'
          (fun pair hmem => (hinside pair hmem).apart_list hbelow (Nat.le_refl _)) ?_
        intro tree hmem value value' tree' hone hother
        have hdepth := NodeTree.depth_le_depths hmem
        refine ih tree hmem hone hother (by omega) (List.forall_mem_cons.mpr ⟨?_, ?_⟩)
        · exact ⟨below, hbelow, by omega⟩
        · exact fun pair hpair => (hinside pair hpair).mono (by omega)
      refine equalWithin_decides _ rfl hapart (fun hsame => ?_) fun _ => ?_
      · obtain rfl := beq_iff_eq.mp hsame
        exact hself.unique hself'
      · change Decides (World.equalItems (world.equalWithin (fuel + 3) _)
          [(world.cell id).label, (world.cell id).val, (world.cell id).position,
            (world.cell id).children]
          [(world.cell id').label, (world.cell id').val, (world.cell id').position,
            (world.cell id').children]) _
        rw [hlabel, hval, hchildren, hlabel', hval', hchildren']
        refine .congr (.items rfl (.cons (equalWithin_text hleaves) (.cons
          (equalWithin_text hleaves) (.cons (equalWithin_position hposition hposition' hinside)
            (.cons hlist (.nil _)))))) ?_
        rw [and_true, NodeTree.node.injEq]

/-- It can always be told whether nodes are equal: they are exactly if they show one tree. -/
theorem World.Shows.equal {tree tree' : NodeTree} (hshows : world.Shows marks value tree)
    (hshows' : world.Shows marks value' tree') :
    Decides (world.equal? value value') (tree = tree') :=
  hshows.equalWithin tree hshows' hshows.depth_lt_extent fun _ hmem => absurd hmem List.not_mem_nil

end Equality

/-- Comparing nodes that show finite trees comes to an end. They are equal exactly if they are
spelled alike, and both exactly if they show the same tree: the same labels, values and positions,
and the same trees below in the same order. Parents, notes and other attributes are free. -/
theorem equal_iff_spelled_alike {one other : NodeId} {tree tree' : NodeTree}
    (hone : world.Shows marks (.node one) tree) (hother : world.Shows marks (.node other) tree') :
    (∃ verdict, world.equal? (.node one) (.node other) = some verdict) ∧
      (world.equal? (.node one) (.node other) = some true ↔
        world.spell (.node one) = world.spell (.node other)) ∧
      (world.equal? (.node one) (.node other) = some true ↔ tree = tree') := by
  obtain ⟨verdict, hequal, hverdict⟩ := hone.equal hother
  have htrees : world.equal? (.node one) (.node other) = some true ↔ tree = tree' := by
    rw [hequal, Option.some.injEq, hverdict]
  refine ⟨⟨verdict, hequal⟩, ?_, htrees⟩
  rw [htrees, hone.spell, hother.spell, String.ofList_inj, NodeTree.spelled_inj]

/-- A node with a text like that of a node, above a node that another one is above as well. -/
def NodeCell.lookalike (id span start stop : Nat) (parent : Value) : NodeCell :=
  { NodeCell.fresh id (.text "it's") (.text "', nodes=[Node(type=\"a\")]")
      (.span span (.location start (.int 1) (.int 1) (.int 0))
        (.location stop (.int 1) (.int 3) (.int 2))) with
    ownChildren := #[.node 1]
    parent }

/-- A world with two such nodes. Their spans are different ones of the same places, and only one of
them has a parent. -/
def World.lookalikes : World :=
  { World.start with
    forest := ⟨#[.lookalike 0 7 5 6 .null, .fresh 1 (.text "a") (.text "") .null,
      .lookalike 2 9 8 4 (.node 1)]⟩ }

def Marks.lookalikes : Marks where
  place serial := if serial = 5 ∨ serial = 8 then ⟨1, 1, 0⟩ else ⟨1, 3, 2⟩
  span _ := (⟨1, 1, 0⟩, ⟨1, 3, 2⟩)

/-- The tree that both of them show. -/
def NodeTree.lookalike : NodeTree :=
  .node "it's" "', nodes=[Node(type=\"a\")]" (some (⟨1, 1, 0⟩, ⟨1, 3, 2⟩)) [.node "a" "" none []]

theorem World.lookalikes_leaf :
    World.lookalikes.Shows .lookalikes (.node 1) (.node "a" "" none []) := by
  rw [World.shows_node]
  exact ⟨1, .children 1, rfl, rfl, rfl, rfl, rfl, rfl⟩

theorem World.lookalikes_below :
    World.lookalikes.ShowsAll .lookalikes [.node 1] [.node "a" "" none []] := by
  rw [World.showsAll_cons]
  exact ⟨.node 1, [], rfl, World.lookalikes_leaf, rfl⟩

theorem World.lookalikes_first : World.lookalikes.Shows .lookalikes (.node 0) .lookalike := by
  rw [NodeTree.lookalike, World.shows_node]
  exact ⟨0, .children 0, rfl, rfl, rfl, ⟨7, _, _, rfl, rfl, ⟨5, rfl, rfl⟩, ⟨6, rfl, rfl⟩⟩, rfl,
    World.lookalikes_below⟩

theorem World.lookalikes_second : World.lookalikes.Shows .lookalikes (.node 2) .lookalike := by
  rw [NodeTree.lookalike, World.shows_node]
  exact ⟨2, .children 2, rfl, rfl, rfl, ⟨9, _, _, rfl, rfl, ⟨8, rfl, rfl⟩, ⟨4, rfl, rfl⟩⟩, rfl,
    World.lookalikes_below⟩

/-- Neither the parent of one of them nor the quotes in their texts matter. -/
theorem equal_iff_spelled_alike_lookalikes :
    World.lookalikes.Shows .lookalikes (.node 0) .lookalike ∧
      World.lookalikes.Shows .lookalikes (.node 2) .lookalike ∧
      World.lookalikes.equal? (.node 0) (.node 2) = some true ∧
      World.lookalikes.spell (.node 0) = World.lookalikes.spell (.node 2) := by
  obtain ⟨-, hspelled, htrees⟩ :=
    equal_iff_spelled_alike World.lookalikes_first World.lookalikes_second
  have hequal := htrees.mpr rfl
  exact ⟨World.lookalikes_first, World.lookalikes_second, hequal, hspelled.mp hequal⟩

end Rulebook
