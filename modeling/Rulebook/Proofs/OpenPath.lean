import Mathlib.Data.List.Chain
import Rulebook.Proofs.Rooted

/-!
# The open nodes are a path

What a parser opens is attached below its innermost open node at that moment, if it had no parent
before. As long as nothing else is opened, and no root is attached, every open node but the root is
a child of the one that was opened before it, whatever fails and whatever is closed or begun anew in
between. So the parents of a node that `apply` attaches are the open nodes, the innermost first.
-/

namespace Rulebook

open Run

/-- Only loose nodes are opened, and no root is opened or attached. Nothing is put in the place of
what holds the trees. -/
def pathKeeping : Law where
  call callable args world :=
    looseAttaching.call callable args world &&
      match callable with
      | .method _ (.node _) "add_node" => world.sparesRoots args
      | .method _ (.host _) "push" => world.takesLoose args && world.sparesRoots args
      | .method _ (.host _) "define" => args.sparesNames treeFields
      | _ => true
  own := treeBuilding.own
  action := treeBuilding.action

theorem pathKeeping_within : pathKeeping.Within looseAttaching where
  call _ _ _ hcall := (Bool.and_eq_true_iff.mp hcall).1
  own := treeBuilding_within.own
  action := treeBuilding_within.action

theorem pathKeeping_guards : pathKeeping.Guards treeFields where
  define hcall := (Bool.and_eq_true_iff.mp hcall).2
  write := treeBuilding_guards.write

/-- What a parser is lawfully told to open is a node that has no parent and is no root. -/
theorem pathKeeping_push {world : World} {serial : Nat} {id : HostId} {args : Args} {value : Value}
    (hcall : pathKeeping.call (.method serial (.host id) "push") args world = true)
    (hargs : args.bind? ParserMethod.push.params = some [value]) :
    ∃ node, value = .node node ∧ (world.cell node).parent = .null := by
  have htaken : (world.takesLoose args && world.sparesRoots args) = true := hcall
  have hloose := (Bool.and_eq_true_iff.mp htaken).1
  have hbound : args.bind? [.needed "node"] = some [value] := hargs
  simp only [World.takesLoose, hbound] at hloose
  split at hloose
  next node hvalue =>
    cases hvalue
    exact ⟨node, rfl, (World.isLoose_iff.mp hloose).2⟩
  next => cases hloose
  next hnone => cases hnone

/-! ## Paths -/

/-- The parents of a node, from its own on, are given nodes, and the last of them has none. -/
inductive World.HasParents (world : World) : NodeId → List NodeId → Prop
  | none {node : NodeId} (hloose : (world.cell node).parent = .null) : HasParents world node []
  | some {node parent : NodeId} {rest : List NodeId} (hparent : world.IsParent parent node)
      (hrest : HasParents world parent rest) : HasParents world node (parent :: rest)

/-- The open nodes of a host: the root, which has no parent, and on it nodes each of which is a
child of the one before. -/
structure World.OpenPath (world : World) (id : HostId) (number bottom : Nat) (above : List NodeId) :
    Prop where
  root : (world.host id).root = some (.node bottom)
  stack : (world.host id).stack = some (.list (.stack number))
  opened : number < world.openStacks.size
  items : (world.items (.stack number)).toList = (bottom :: above).map .node
  loose : (world.cell bottom).parent = .null
  chain : (bottom :: above).IsChain world.IsParent

/-- The open nodes of every host that has begun to read are a path. -/
def World.Pathed (world : World) : Prop :=
  ∀ id, ((world.host id).root = none ∧ (world.host id).stack = none) ∨
    ∃ number root above, world.OpenPath id number root above

section Paths

variable {world after : World} {id : HostId} {number root : Nat} {above : List NodeId}

/-- What hangs below the end of a path has the path for its parents. -/
theorem World.hasParents_path {path : List NodeId} {node : NodeId}
    (hpath : path.IsChain world.IsParent)
    (hfirst : ∀ first ∈ path.head?, (world.cell first).parent = .null)
    (hlast : ∀ last ∈ path.getLast?, world.IsParent last node) (hpresent : path ≠ []) :
    world.HasParents node path.reverse := by
  induction path using List.reverseRecOn generalizing node with
  | nil => exact absurd rfl hpresent
  | append_singleton path last ih =>
      rw [List.reverse_concat]
      refine .some (hlast last (by simp)) ?_
      cases path with
      | nil => exact .none (hfirst last (by simp))
      | cons first rest =>
          have hsplit := List.isChain_append.mp hpath
          refine ih hsplit.1 (fun other hother => ?_) (fun other hother => ?_) (by simp)
          · exact hfirst other (by simpa using hother)
          · exact hsplit.2.2 other hother last (by simp)

/-- A path stays one when the parents of its nodes stay what they are. -/
theorem World.OpenPath.congr (hpath : world.OpenPath id number root above)
    (hparents : ∀ node ∈ root :: above, (after.cell node).parent = (world.cell node).parent)
    (hroot : (after.host id).root = (world.host id).root)
    (hstack : (after.host id).stack = (world.host id).stack)
    (hopened : world.openStacks.size ≤ after.openStacks.size)
    (hitems : after.items (.stack number) = world.items (.stack number)) :
    after.OpenPath id number root above where
  root := hroot.trans hpath.root
  stack := hstack.trans hpath.stack
  opened := Nat.lt_of_lt_of_le hpath.opened hopened
  items := hitems ▸ hpath.items
  loose := (hparents root List.mem_cons_self).trans hpath.loose
  chain := hpath.chain.imp_of_mem_imp fun _ child _ hchild hparent =>
    (hparents child hchild).trans hparent

/-- The innermost open node is the end of the path. -/
theorem World.OpenPath.back (hpath : world.OpenPath id number root above) :
    (world.items (.stack number)).back? = some (.node ((root :: above).getLast (by simp))) := by
  rw [← Array.getLast?_toList, hpath.items, List.getLast?_map, List.getLast?_eq_some_getLast]
  rfl

/-- Every open node but the first has the one before it for its parent. -/
theorem World.OpenPath.parents (hpath : world.OpenPath id number root above) {place : Nat}
    (hplace : place + 1 < (world.items (.stack number)).size) :
    ∃ parent child, (world.items (.stack number))[place]? = some (.node parent) ∧
      (world.items (.stack number))[place + 1]? = some (.node child) ∧
      world.IsParent parent child := by
  have hlength : (world.items (.stack number)).size = (root :: above).length := by
    rw [← Array.length_toList, hpath.items, List.length_map]
  have hitem : ∀ place : Nat, (world.items (.stack number))[place]? =
      ((root :: above)[place]?).map Value.node := by
    intro place
    rw [← Array.getElem?_toList, hpath.items, List.getElem?_map]
  have hinside : place + 1 < (root :: above).length := hlength ▸ hplace
  refine ⟨(root :: above)[place], (root :: above)[place + 1], ?_, ?_, ?_⟩
  · rw [hitem, List.getElem?_eq_getElem (Nat.lt_of_succ_lt hinside)]
    rfl
  · rw [hitem, List.getElem?_eq_getElem hinside]
    rfl
  · exact List.isChain_iff_getElem.mp hpath.chain place hinside

/-- A node that hangs below the innermost open node is opened. -/
theorem World.OpenPath.push {other : Nat} {top node : NodeId}
    (hpath : world.OpenPath id number root above)
    (htop : (world.items (.stack other)).back? = some (.node top))
    (hparent : world.IsParent top node) :
    ∃ above, (world.changeItems (.stack other) fun values => values.push (.node node)).OpenPath
      id number root above := by
  classical
  by_cases hsame : other = number
  · subst hsame
    refine ⟨above ++ [node], hpath.root, hpath.stack, ?_, ?_, hpath.loose, ?_⟩
    · exact Nat.lt_of_lt_of_eq hpath.opened Array.size_modify.symm
    · rw [World.items_changeItems, if_pos ⟨rfl, hpath.opened⟩, Array.toList_push, hpath.items]
      simp
    · rw [← List.cons_append]
      refine List.isChain_append.mpr ⟨hpath.chain, .singleton node, ?_⟩
      intro last hlast first hfirst
      obtain rfl : node = first := by simpa using hfirst
      have hback := hpath.back
      rw [htop] at hback
      obtain rfl : top = last := by
        rw [Value.node.inj (Option.some.inj hback)]
        exact Option.some.inj ((List.getLast?_eq_some_getLast (by simp)).symm.trans hlast)
      exact hparent
  · refine ⟨above, hpath.congr (fun _ _ => rfl) rfl rfl (Nat.le_of_eq Array.size_modify.symm) ?_⟩
    rw [World.items_changeItems, if_neg]
    rintro ⟨hlist, _⟩
    exact hsame (ListRef.stack.inj hlist)

/-- The innermost of at least two open nodes is closed. -/
theorem World.OpenPath.pop {other : Nat} (hpath : world.OpenPath id number root above)
    (hsize : 2 ≤ (world.items (.stack other)).size) :
    ∃ above, (world.changeItems (.stack other) Array.pop).OpenPath id number root above := by
  classical
  by_cases hsame : other = number
  · subst hsame
    have hmany : above ≠ [] := by
      rintro rfl
      rw [← Array.length_toList, hpath.items] at hsize
      exact absurd hsize (by simp)
    have hshorter : root :: above.dropLast = (root :: above).dropLast :=
      (List.dropLast_cons_of_ne_nil hmany).symm
    refine ⟨above.dropLast, hpath.root, hpath.stack, ?_, ?_, hpath.loose, ?_⟩
    · exact Nat.lt_of_lt_of_eq hpath.opened Array.size_modify.symm
    · rw [World.items_changeItems, if_pos ⟨rfl, hpath.opened⟩, Array.toList_pop, hpath.items,
        hshorter, List.map_dropLast]
    · rw [hshorter]
      exact hpath.chain.dropLast
  · refine ⟨above, hpath.congr (fun _ _ => rfl) rfl rfl (Nat.le_of_eq Array.size_modify.symm) ?_⟩
    rw [World.items_changeItems, if_neg]
    rintro ⟨hlist, _⟩
    exact hsame (ListRef.stack.inj hlist)

/-- A loose node that is no root is on no path, so attaching it changes none. -/
theorem World.OpenPath.attach {child parent : NodeId} (hpath : world.OpenPath id number root above)
    (hchild : child < world.forest.size) (hparent : parent < world.forest.size)
    (hloose : (world.cell child).parent = .null) (hspared : ¬world.IsRoot child) :
    (world.attach child parent).OpenPath id number root above := by
  have hkept : ∀ node, node ≠ child →
      ((world.attach child parent).cell node).parent = (world.cell node).parent := by
    intro node hnode
    rw [cell_attach hchild hparent]
    exact if_neg hnode
  have hroot : root ≠ child := by
    rintro rfl
    exact hspared ⟨id, hpath.root⟩
  refine { hpath with
    loose := (hkept root hroot).trans hpath.loose
    chain := hpath.chain.imp fun upper lower hupper => (hkept lower ?_).trans hupper }
  rintro rfl
  cases hloose.symm.trans hupper

/-- A parser that begins anew leaves the paths of the others as they are. -/
theorem World.Pathed.restart (id : HostId) (input : Value) (hpathed : world.Pathed) :
    (world.restart id input).Pathed := by
  have hparents := World.parent_restart world id input
  have hitems := World.items_restart world id input
  have hsize := World.size_openStacks_restart world id input
  intro other
  have hhost := world.host_restart_of id input other
  by_cases hbegun : id = other ∧ other < world.hosts.size
  · rw [if_pos hbegun] at hhost
    refine .inr ⟨world.openStacks.size, world.forest.size, [], ?_, ?_, ?_, ?_, ?_, .singleton _⟩
    · rw [hhost]
    · rw [hhost]
    · rw [hsize]
      exact Nat.lt_succ_self _
    · rw [hitems, if_pos rfl]
      rfl
    · rw [hparents, cell_absent (Nat.lt_irrefl _)]
      rfl
  · rw [if_neg hbegun] at hhost
    rcases hpathed other with ⟨hroot, hstack⟩ | ⟨number, root, above, hpath⟩
    · exact .inl ⟨by rw [hhost, hroot], by rw [hhost, hstack]⟩
    · refine .inr ⟨number, root, above, hpath.congr (fun node _ => hparents node) ?_ ?_ ?_ ?_⟩
      · rw [hhost]
      · rw [hhost]
      · rw [hsize]
        exact Nat.le_succ _
      · rw [hitems, if_neg (Nat.ne_of_lt hpath.opened)]

theorem World.Pathed.opensNodes (hpathed : world.Pathed) (id : HostId) : world.OpensNodes id := by
  intro value hvalue
  rcases hpathed id with ⟨_, hnone⟩ | ⟨number, root, above, hpath⟩
  · cases hvalue.symm.trans hnone
  · cases hvalue.symm.trans hpath.stack
    refine ⟨_, rfl, fun item hitem => ?_⟩
    rw [← Array.mem_toList_iff, hpath.items] at hitem
    obtain ⟨node, _, rfl⟩ := List.mem_map.mp hitem
    exact ⟨node, rfl⟩

end Paths

/-! ## Runs that keep paths -/

/-- What is true of open nodes while the law is kept. -/
def World.KeepsPaths (world : World) : Prop :=
  (world.Linked ∧ world.NodesUnreplaced treeFields) ∧ world.Pathed

section Runs

variable {law : Law} {before world after : World} {caller : Value} {rounds depth : Nat}
  {id : HostId} {node : NodeId}

/-- A node that was loose when it was to be attached hangs below the innermost open node then. -/
theorem World.KeepsPaths.attachLoose (hwithin : law.Within pathKeeping)
    (hbefore : before.KeepsPaths) (hloose : (before.cell node).parent = .null)
    (hattached : (Parser.attachLoose (law.kernel caller rounds depth) id (.node node)).outcome
      before = (.ok (), world)) :
    ∃ number top serial, (before.host id).stack = some (.list (.stack number)) ∧
      (before.items (.stack number)).back? = some (.node top) ∧
      top < before.forest.size ∧ node < before.forest.size ∧
      world = (before.attach node top).withSerial serial := by
  obtain ⟨⟨⟨⟨hshaped, _⟩, hprevs⟩, hfree⟩, hpathed⟩ := hbefore
  rcases attachLoose_ok (hwithin.trans pathKeeping_within) hshaped hprevs (by decide) hfree
    (hpathed.opensNodes id) hattached with
    ⟨hparent, _⟩ | ⟨_, ref, top, serial, hstack, htop, hpresent, hnode, hworld⟩
  · exact absurd hloose hparent
  · obtain ⟨number, rfl⟩ := hshaped.stack _ _ hstack
    exact ⟨number, top, serial, hstack, htop, hpresent, hnode, hworld⟩

theorem keepsPaths_preserved (hwithin : law.Within pathKeeping) :
    law.Preserves World.KeepsPaths := by
  have hloosely := hwithin.trans pathKeeping_within
  have hguards := hwithin.guards pathKeeping_guards
  have hfree : law.Preserves fun world => world.Linked ∧ world.NodesUnreplaced treeFields :=
    (linked_preserved hloosely).both (nodesUnreplaced_preserved hguards (by decide))
  refine hfree.and ?_
  rintro world after hmove ⟨⟨⟨hshaped, _⟩, _⟩, _⟩ - hpathed
  -- a restart begins a path; every other move keeps the roots and stacks of all hosts
  have hpaths : ∀ {after : World},
      (∀ id, (after.host id).root = (world.host id).root ∧
        (after.host id).stack = (world.host id).stack) →
      (∀ id number root above, world.OpenPath id number root above →
        ∃ above, after.OpenPath id number root above) → after.Pathed := by
    intro after hhosts hkept id
    rcases hpathed id with ⟨hroot, hstack⟩ | ⟨number, root, above, hpath⟩
    · exact .inl ⟨(hhosts id).1.trans hroot, (hhosts id).2.trans hstack⟩
    · exact .inr ⟨number, root, hkept id number root above hpath⟩
  cases hmove.shaped hloosely hshaped with
  | change hchange =>
      have hhosts := fun id => (hchange.host id).holds hguards
      have hstacks := hchange.openStacks
      refine hpaths hhosts fun id number root above hpath => ⟨above, ?_⟩
      refine hpath.congr (fun node _ => ((hchange.links hloosely).cell_eq node).1)
        (hhosts id).1 (hhosts id).2 ?_ ?_
      · rw [hstacks]
      · rw [World.items, hstacks]
        rfl
  | restart id input => exact hpathed.restart id input
  | openNode hcall hargs hbefore hattached hstack =>
      obtain ⟨node, rfl, hloose⟩ := pathKeeping_push (hwithin.call _ _ _ hcall) hargs
      obtain ⟨other, top, serial, hopen, htop, hpresent, hnode, rfl⟩ :=
        World.KeepsPaths.attachLoose hwithin hbefore hloose hattached
      cases hopen.symm.trans hstack
      refine hpaths (fun _ => ⟨rfl, rfl⟩) fun id number root above hpath => ?_
      refine hpath.push htop ?_
      change ((World.attach _ node top).cell node).parent = .node top
      rw [cell_attach hnode hpresent]
      exact if_pos rfl
  | closeNode hsize =>
      exact hpaths (fun _ => ⟨rfl, rfl⟩) fun id number root above hpath => hpath.pop hsize
  | attach hcall hargs =>
      obtain ⟨hpresent, _, hvalue, hchild, hloose⟩ :=
        looseAttaching_addNode (hloosely.call _ _ _ hcall) hargs
      cases hvalue
      have hspared := (Bool.and_eq_true_iff.mp (hwithin.call _ _ _ hcall)).2
      simp only [World.sparesRoots, hargs, Bool.not_eq_true'] at hspared
      refine hpaths (fun _ => ⟨rfl, rfl⟩) fun id number root above hpath => ⟨above, ?_⟩
      refine hpath.attach hchild hpresent hloose fun hroot => ?_
      cases hspared.symm.trans (World.isRoot_iff.mpr hroot)

theorem pathKeeping_upholds : pathKeeping.Upholds World.KeepsPaths where
  preserves := keepsPaths_preserved (.refl _)
  clears := by
    intro before callable args after hown hkeeps hasked
    obtain ⟨hasked, hspared⟩ := Bool.and_eq_true_iff.mp hasked
    refine Bool.and_eq_true_iff.mpr ⟨looseAttaching_clears hown hkeeps.1.1.2 hasked, ?_⟩
    cases hown with
    | consume => rfl
    | attach => exact hspared

theorem keepsPaths_start : World.start.KeepsPaths :=
  ⟨⟨linked_start, fun _ _ _ => rfl⟩, fun _ => .inl ⟨rfl, rfl⟩⟩

end Runs

/-! ## What the path says of attached nodes -/

/-- The list of open nodes of a host is a path to the node that the next one is attached below. -/
structure World.LeadsToInnermost (world : World) (id : HostId) : Prop where
  /-- Every open node but the first has the one before it for its parent. -/
  parents : ∀ (ref : ListRef) (place : Nat), (world.host id).stack = some (.list ref) →
    place + 1 < (world.items ref).size →
      ∃ parent child, (world.items ref)[place]? = some (.node parent) ∧
        (world.items ref)[place + 1]? = some (.node child) ∧ world.IsParent parent child
  /-- When a rule that is lawfully applied gives a node that has no parent by then, the node becomes
  the last child of the innermost open node, and its parents are the open nodes from there down. -/
  attached : ∀ (caller label rule value : Value) (rounds depth : Nat) (node : NodeId)
    (asked given after : World),
    ((pathKeeping.kernel caller rounds depth).sendHost id "get" [label]).outcome world =
      (.ok rule, asked) →
    ((pathKeeping.kernel caller rounds depth).call rule [.host id]).outcome asked =
      (.ok (.node node), given) →
    (given.cell node).parent = .null →
    (Parser.apply (pathKeeping.kernel caller rounds depth) id label).outcome world =
      (.ok value, after) →
    value = .node node ∧
      (Parser.apply (Kernel.ofDepth rounds depth) id label).outcome world = (.ok value, after) ∧
      ∃ ref below top, (after.host id).stack = some (.list ref) ∧
        (after.items ref).toList = (below ++ [top]).map .node ∧
        after.childNodes top = given.childNodes top ++ [node] ∧
        after.HasParents node (top :: below.reverse)

section Attached

variable {world given after : World} {caller label rule value : Value} {rounds depth : Nat}
  {id : HostId} {node : NodeId}

/-- What is attached below the end of a path has the path for its parents. -/
theorem World.KeepsPaths.attached (hgiven : given.KeepsPaths)
    (hloose : (given.cell node).parent = .null)
    (hattached : (Parser.attachLoose (pathKeeping.kernel caller rounds depth) id
      (.node node)).outcome given = (.ok (), after)) (hafter : after.KeepsPaths) :
    ∃ ref below top, (after.host id).stack = some (.list ref) ∧
      (after.items ref).toList = (below ++ [top]).map .node ∧
      after.childNodes top = given.childNodes top ++ [node] ∧
      after.HasParents node (top :: below.reverse) := by
  obtain ⟨number, top, serial, hstack, htop, hpresent, hnode, rfl⟩ :=
    hgiven.attachLoose (.refl _) hloose hattached
  have hshaped := hgiven.1.1.1.1
  have hshaped' := hafter.1.1.1.1
  have hcell := fun other => @cell_attach given _ _ hnode hpresent other
  rcases hafter.2 id with ⟨_, hnone⟩ | ⟨other, root, above, hpath⟩
  · cases hnone.symm.trans hstack
  cases hpath.stack.symm.trans hstack
  have hback := hpath.back
  have hends : (root :: above) = (root :: above).dropLast ++ [top] := by
    have hlast : (root :: above).getLast (by simp) = top :=
      Value.node.inj (Option.some.inj (hback.symm.trans htop))
    rw [← hlast, List.dropLast_append_getLast]
  refine ⟨_, (root :: above).dropLast, top, hstack, ?_, ?_, ?_⟩
  · rw [← hends]
    exact hpath.items
  · rw [childNodes_eq hshaped', childNodes_eq hshaped]
    change ((given.attach node top).cell top).ownChildren.toList.filterMap Value.node? = _
    rw [hcell, if_pos rfl]
    simp [Value.node?]
  · rw [← List.reverse_concat, ← hends]
    refine World.hasParents_path hpath.chain (fun first hfirst => ?_) (fun last hlast => ?_)
      (by simp)
    · cases hfirst
      exact hpath.loose
    · rw [hends, List.getLast?_concat] at hlast
      cases hlast
      change ((given.attach node top).cell node).parent = .node top
      rw [hcell]
      exact if_pos rfl

theorem World.KeepsPaths.leadsToInnermost (hworld : world.KeepsPaths) (id : HostId) :
    world.LeadsToInnermost id where
  parents ref place hstack hplace := by
    rcases hworld.2 id with ⟨_, hnone⟩ | ⟨number, root, above, hpath⟩
    · cases hnone.symm.trans hstack
    · cases hpath.stack.symm.trans hstack
      exact hpath.parents hplace
  attached caller label rule value rounds depth node asked given after hget hcall hloose
      happly := by
    have hover := Law.oversees_free pathKeeping_upholds caller rounds depth
    have hasked : asked.KeepsPaths := by
      have hkept := (@Law.Oversees.sendHost _ _ _ _ _ hover id "get" (fun _ => rfl) [label] world
        hworld).1
      rwa [hget] at hkept
    have hgiven : given.KeepsPaths := by
      have hkept := (hover.call rule [.host id] asked hasked).1
      rwa [hcall] at hkept
    obtain ⟨hafter, hfree⟩ := hover.apply id label world hworld
    rw [happly] at hafter hfree
    rw [Parser.apply, outcome_bind_ok hget, outcome_bind_ok hcall] at happly
    obtain ⟨_, attached, hattached, hend⟩ := bind_ok happly
    cases hend
    exact ⟨rfl, hfree.resolve_left nofun, hgiven.attached hloose hattached hafter⟩

end Attached

/-- Throughout a run that opens only loose nodes and attaches no root, the list of open nodes of
every host is a path to the node that the next one is attached below. -/
theorem open_path_throughout {rounds depth : Nat} {body : List Stmt}
    (hkeeps : pathKeeping.Keeps rounds depth body) :
    Throughout (fun world => ∀ id, world.LeadsToInnermost id) rounds depth body :=
  hkeeps.throughout pathKeeping_upholds keepsPaths_start fun _ hworld id =>
    hworld.leadsToInnermost id

/-- Lists are read again by rules that open and close them: one text fails inside two open lists,
and the next one is read to its end. -/
def listsAgainScript : List Stmt :=
  listsScript ++
    [.attempt [.act (.send "parser" "parse" [.datum (.text "((a!")] []) none] "fault" [],
      .act (.send "parser" "parse" [.datum (.text "((a)b)")] []) none]

theorem open_path_listsAgain :
    pathKeeping.Keeps 12 12 listsAgainScript ∧
      Throughout (fun world => ∀ id, world.LeadsToInnermost id) 12 12 listsAgainScript :=
  ⟨by decide +kernel, open_path_throughout (by decide +kernel)⟩

end Rulebook
