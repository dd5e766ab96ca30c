import Rulebook.Proofs.Frame

/-!
# Parents and children agree

A node knows its parent and a parent knows its children, and both are written in more than one
place: by `push`, by `apply` around a rule, and by scripts that attach a node themselves. As long as
scripts attach only nodes without a parent, the two agree throughout every run: a node stands once
among the children of its parent and nowhere else. That what `push` and `apply` attach has no parent
is seen from what they look at before.
-/

namespace Rulebook

open Run

/-- The attributes that say where nodes stand and which lists parsers and nodes work on. -/
def linkFields : List String := ["nodes", "parent", "meta", "stack", "rules"]

/-- Whether a node is there and has no parent. -/
def World.isLoose (world : World) (node : NodeId) : Bool :=
  node < world.forest.size &&
    match (world.cell node).parent with
    | .null => true
    | _ => false

theorem World.isLoose_iff {world : World} {node : NodeId} :
    world.isLoose node = true ↔
      node < world.forest.size ∧ (world.cell node).parent = .null := by
  rw [isLoose, Bool.and_eq_true, decide_eq_true_eq]
  refine and_congr_right fun _ => ?_
  split
  next hparent => exact iff_of_true rfl hparent
  next hparent => exact iff_of_false Bool.false_ne_true hparent

/-- Whether arguments name one node, and that one is loose. -/
def World.takesLoose (world : World) (args : Args) : Bool :=
  match args.bind? [.needed "node"] with
  | some [.node child] => world.isLoose child
  | some _ => false
  | none => true

/-- Whether arguments name one node, and that one is there. -/
def World.takesNode (world : World) (args : Args) : Bool :=
  match args.bind? [.needed "node"] with
  | some [.node child] => child < world.forest.size
  | some _ => false
  | none => true

/-- Scripts attach only loose nodes, and attach none in another way: they write none of the links,
make nodes with no more than a label, a text and a position, and put nothing in the place of `prev`.
What parsers attach by themselves, and what they attach it to, are nodes that have been made. -/
def looseAttaching : Law where
  call callable args world :=
    match callable with
    | .method _ (.node parent) "add_node" => parent < world.forest.size && world.takesLoose args
    | .method _ (.host _) "define" => args.sparesNames ["prev"]
    | _ => true
  own callable args world :=
    match callable with
    | .method _ (.node parent) "add_node" => parent < world.forest.size && world.takesNode args
    | _ => true
  action
    | .write _ name _ => name ∉ "prev" :: linkFields
    | .call function terms named =>
      Function.table.lookup function ≠ some .newNode || (terms.length ≤ 3 && named.isEmpty)
    | _ => true

theorem looseAttaching_write {object name : String} {term : Term}
    (haction : looseAttaching.action (.write object name term) = true) :
    name ∉ ["prev"] ∧ name ∉ linkFields := by
  simpa [looseAttaching] using haction

theorem looseAttaching_guards : looseAttaching.Guards ["prev"] where
  define hcall := hcall
  write haction := (looseAttaching_write haction).1

/-- Nodes have their own children, and no list is in a place where it would be taken for something
else. -/
structure World.Shaped (world : World) : Prop where
  children : ∀ node : NodeId, node < world.forest.size →
    (world.cell node).children = .list (.children node)
  notes : ∀ (node : NodeId) (ref : ListRef), (world.cell node).notes ≠ .list ref
  stack : ∀ (id : HostId) (ref : ListRef), (world.host id).stack = some (.list ref) →
    ∃ number, ref = .stack number
  rules : ∀ (id : HostId) (ref : ListRef), (world.host id).rules ≠ some (.list ref)

/-- A node is linked as another is. -/
structure NodeCell.SameLinks (cell other : NodeCell) : Prop where
  children : cell.children = other.children
  parent : cell.parent = other.parent
  notes : cell.notes = other.notes
  ownChildren : cell.ownChildren = other.ownChildren

/-- The trees are what they were: no link changes, or a node is made that hangs nowhere. -/
inductive World.SameTrees (world after : World) : Prop
  | same (hsize : after.forest.size = world.forest.size)
      (hcells : ∀ node, (after.cell node).SameLinks (world.cell node))
  | grow (label val position : Value)
      (hforest : after.forest = world.forest.add (.fresh world.forest.size label val position))

/-- What a lawful move can do to the trees. -/
inductive Law.LinkMove (law : Law) (world after : World) : Prop
  | same (htrees : world.SameTrees after)
  | attach {serial : Nat} {args : Args} {child parent : NodeId}
      (hcall : law.call (.method serial (.node parent) "add_node") args world = true)
      (hargs : args.bind? [.needed "node"] = some [.node child])
      (hafter : after = world.attach child parent)

theorem NodeCell.SameLinks.refl (cell : NodeCell) : cell.SameLinks cell := ⟨rfl, rfl, rfl, rfl⟩

namespace World.SameTrees

variable {world after : World}

theorem of_forest (hforest : after.forest = world.forest) : world.SameTrees after :=
  .same (congrArg Forest.size hforest) fun node => by
    rw [show after.cell node = world.cell node from congrArg (Forest.cell · node) hforest]
    exact .refl _

/-- A node that is not there yet has no parent and no children either. -/
theorem cell_eq (htrees : world.SameTrees after) (node : NodeId) :
    (after.cell node).parent = (world.cell node).parent ∧
      (after.cell node).ownChildren = (world.cell node).ownChildren := by
  cases htrees with
  | same _ hcells => exact ⟨(hcells node).parent, (hcells node).ownChildren⟩
  | grow label val position hforest =>
      rw [World.cell, hforest, Forest.cell_add]
      split
      next heq =>
        rw [cell_absent (by rw [heq]; exact Nat.lt_irrefl _)]
        exact ⟨rfl, rfl⟩
      next => exact ⟨rfl, rfl⟩

end World.SameTrees

/-- The new root of a parser that begins to read is apart from all other nodes. -/
theorem World.sameTrees_restart (world : World) (id : HostId) (input : Value) :
    world.SameTrees (world.restart id input) := .grow (.text "root") (.text "") .null rfl

theorem World.parent_restart (world : World) (id : HostId) (input : Value) (node : NodeId) :
    ((world.restart id input).cell node).parent = (world.cell node).parent :=
  ((world.sameTrees_restart id input).cell_eq node).1

/-- Writing an attribute that is no link changes no link. -/
theorem sameLinks_setAttribute (cell : NodeCell) {name : String} (content : Value)
    (hname : name ∉ linkFields) : (cell.setAttribute name content).SameLinks cell := by
  unfold NodeCell.setAttribute
  split
  case h_4 | h_5 | h_6 => exact absurd (by decide) hname
  all_goals exact ⟨rfl, rfl, rfl, rfl⟩

theorem sameTrees_setAttribute (value content : Value) {name : String}
    (hname : name ∉ linkFields) (world : World) :
    world.SameTrees ((setAttribute value name content).outcome world).2 := by
  rcases setAttribute_change value content name world with
    ⟨node, _, hafter⟩ | ⟨other, _, hafter⟩ | hquiet
  · rw [hafter]
    refine .same (Forest.size_modify _ _ _) fun other => ?_
    simp only [World.changeCell, World.cell, Forest.cell_modify]
    split
    next => exact sameLinks_setAttribute _ content hname
    next => exact .refl _
  · rw [hafter]
    exact .of_forest rfl
  · exact .of_forest hquiet.forest

/-- A node that is lawfully attached is loose, and so is there the node that it is attached to. -/
theorem looseAttaching_addNode {world : World} {serial : Nat} {parent : NodeId} {args : Args}
    {value : Value}
    (hcall : looseAttaching.call (.method serial (.node parent) "add_node") args world = true)
    (hargs : args.bind? [.needed "node"] = some [value]) :
    parent < world.forest.size ∧ ∃ child, value = .node child ∧ child < world.forest.size ∧
      (world.cell child).parent = .null := by
  simp only [looseAttaching, World.takesLoose, hargs, Bool.and_eq_true, decide_eq_true_eq] at hcall
  refine ⟨hcall.1, ?_⟩
  have hloose := hcall.2
  split at hloose
  next child hvalue =>
    cases hvalue
    exact ⟨child, rfl, World.isLoose_iff.mp hloose⟩
  next => cases hloose
  next hnone => cases hnone

/-- What a parser attaches by itself, and what it attaches it to, are nodes that have been made. -/
theorem looseAttaching_own {world : World} {serial : Nat} {parent : NodeId} {args : Args}
    {value : Value}
    (hown : looseAttaching.own (.method serial (.node parent) "add_node") args world = true)
    (hargs : args.bind? [.needed "node"] = some [value]) :
    parent < world.forest.size ∧ ∃ child, value = .node child ∧ child < world.forest.size := by
  simp only [looseAttaching, World.takesNode, hargs, Bool.and_eq_true, decide_eq_true_eq] at hown
  refine ⟨hown.1, ?_⟩
  have hpresent := hown.2
  split at hpresent
  next child hvalue =>
    cases hvalue
    exact ⟨child, rfl, of_decide_eq_true hpresent⟩
  next => cases hpresent
  next hnone => cases hnone

section LinkMoves

variable {law : Law} {inv : World → Prop} {world after : World}

theorem Law.Change.links (hwithin : law.Within looseAttaching)
    (hchange : law.Change world after) : world.SameTrees after := by
  cases hchange with
  | quiet hquiet => exact .of_forest hquiet.forest
  | newNode label val position => exact .grow label val position rfl
  | newNodeWithin _ _ _ _ _ _ haction hfunction hmore =>
      have hfew := hwithin.action _ haction
      simp only [looseAttaching, hfunction, ne_eq, not_true, decide_false, Bool.false_or,
        Bool.and_eq_true, decide_eq_true_eq, List.isEmpty_iff] at hfew
      exact absurd hmore (by rw [not_or, not_not]; exact ⟨by omega, hfew.2⟩)
  | newHost | setNested | advance => exact .of_forest rfl
  | writeRecord ref | eraseEntry ref =>
      refine .same (World.size_changeRecord _ _ _) fun node => ?_
      obtain ⟨_, hcell⟩ := world.cell_changeRecord ref _ node
      rw [hcell]
      exact ⟨rfl, rfl, rfl, rfl⟩
  | stamp value position => exact sameTrees_setAttribute _ _ (by decide) world
  | @define _ _ other _ name => exact .of_forest (forest_setAttribute_host other _ name world)
  | write value content haction =>
      exact sameTrees_setAttribute _ _ (looseAttaching_write (hwithin.action _ haction)).2 world

/-- Where a node is lawfully told its parent, the parent keeps its children in a list of its own. -/
theorem World.Shaped.told {serial : Nat} {node : NodeId} {args : Args} {child : Value}
    {middle : World} (hshaped : world.Shaped)
    (hcall : looseAttaching.call (.method serial (.node node) "add_node") args world = true)
    (hargs : args.bind? [.needed "node"] = some [child])
    (hparent : (setAttribute child "parent" (.node node)).outcome world = (.ok (), middle)) :
    ∃ id, child = .node id ∧ middle = world.setParent id node ∧
      (middle.cell node).children = .list (.children node) := by
  obtain ⟨hnode, id, rfl, _⟩ := looseAttaching_addNode hcall hargs
  cases hparent
  exact ⟨id, rfl, rfl, (children_setParent world id node node).trans (hshaped.children node hnode)⟩

/-- What a lawful move is where nodes keep their own children: no item is replaced in a list, only
lists of open nodes are opened and closed, and a node that is told its parent becomes a child of
it. -/
inductive Law.ShapedMove (law : Law) (inv : World → Prop) (world : World) : World → Prop
  | change {after : World} (hchange : law.Change world after) : ShapedMove law inv world after
  | restart (id : HostId) (input : Value)
      (hcause : (world.host id).root = none ∨
        ∃ serial args, law.call (.method serial (.host id) "reset") args world = true) :
      ShapedMove law inv world (world.restart id input)
  | openNode {caller : Value} {rounds depth serial number : Nat} {id : HostId} {args : Args}
      {node : Value} {before : World}
      (hcall : law.call (.method serial (.host id) "push") args before = true)
      (hargs : args.bind? ParserMethod.push.params = some [node]) (hbefore : inv before)
      (hattached : (Parser.attachLoose (law.kernel caller rounds depth) id node).outcome before =
        (.ok (), world))
      (hstack : (world.host id).stack = some (.list (.stack number))) :
      ShapedMove law inv world
        (world.changeItems (.stack number) fun values => values.push node)
  | closeNode {number : Nat} (hsize : 2 ≤ (world.items (.stack number)).size) :
      ShapedMove law inv world (world.changeItems (.stack number) Array.pop)
  | attach {serial : Nat} {args : Args} {child parent : NodeId}
      (hcall : law.call (.method serial (.node parent) "add_node") args world = true)
      (hargs : args.bind? [.needed "node"] = some [.node child]) :
      ShapedMove law inv world (world.attach child parent)

theorem Law.Move.shaped (hwithin : law.Within looseAttaching) (hmove : law.Move inv world after)
    (hshaped : world.Shaped) : law.ShapedMove inv world after := by
  cases hmove with
  | change hchange => exact .change hchange
  | restart id input hcause => exact .restart id input hcause
  | setListItem place content hheld =>
      rcases hheld with ⟨node, hnotes⟩ | ⟨id, hrules⟩
      · exact absurd hnotes (hshaped.notes node _)
      · exact absurd hrules (hshaped.rules id _)
  | openNode hcall hargs hbefore hattached hstack =>
      obtain ⟨number, rfl⟩ := hshaped.stack _ _ hstack
      exact .openNode hcall hargs hbefore hattached hstack
  | closeNode hstack hsize =>
      obtain ⟨number, rfl⟩ := hshaped.stack _ _ hstack
      exact .closeNode hsize
  | setParent hcall hargs hparent hchildren =>
      obtain ⟨_, _, _, hown⟩ := hshaped.told (hwithin.call _ _ _ hcall) hargs hparent
      exact absurd hown (hchildren _)
  | attach hcall hargs hparent hchildren =>
      obtain ⟨child, rfl, rfl, hown⟩ := hshaped.told (hwithin.call _ _ _ hcall) hargs hparent
      obtain rfl := Value.list.inj (hchildren.symm.trans hown)
      exact .attach hcall hargs

/-- Every lawful move leaves the trees as they are, or attaches a loose node. -/
theorem Law.Move.links (hwithin : law.Within looseAttaching) (hmove : law.Move inv world after)
    (hshaped : world.Shaped) : law.LinkMove world after := by
  cases hmove.shaped hwithin hshaped with
  | change hchange => exact .same (hchange.links hwithin)
  | restart id input => exact .same (world.sameTrees_restart id input)
  | openNode | closeNode => exact .same (.of_forest rfl)
  | attach hcall hargs => exact .attach hcall hargs rfl

end LinkMoves

/-! ## Shape -/

@[simp] theorem size_attach (world : World) (child parent : NodeId) :
    (world.attach child parent).forest.size = world.forest.size := by
  simp only [World.attach, World.changeItems, World.setParent, World.changeCell, Forest.size_modify]

/-- Attaching tells the child its parent and gives the parent a last child. -/
theorem cell_attach {world : World} {child parent : NodeId} (hchild : child < world.forest.size)
    (hparent : parent < world.forest.size) (node : NodeId) :
    (world.attach child parent).cell node =
      { world.cell node with
        parent := if node = child then .node parent else (world.cell node).parent
        ownChildren :=
          if node = parent then (world.cell node).ownChildren.push (.node child)
          else (world.cell node).ownChildren } := by
  simp only [World.attach, World.changeItems, World.setParent, World.changeCell, World.cell,
    Forest.cell_modify, Forest.size_modify]
  by_cases hfirst : node = child <;> by_cases hsecond : node = parent
  · subst hfirst hsecond
    simp [hchild]
  · subst hfirst
    simp [hchild, hsecond, Ne.symm hsecond]
  · subst hsecond
    simp [hparent, hfirst, Ne.symm hfirst]
  · simp [hfirst, hsecond, Ne.symm hfirst, Ne.symm hsecond]

section ShapeKept

variable {law : Law} {world after : World}

theorem Law.LinkMove.shaped (hwithin : law.Within looseAttaching) (hmove : law.LinkMove world after)
    (hshaped : world.Shaped) (node : NodeId) :
    (node < after.forest.size → (after.cell node).children = .list (.children node)) ∧
      ∀ ref, (after.cell node).notes ≠ .list ref := by
  cases hmove with
  | same htrees =>
      cases htrees with
      | same hsize hcells =>
          rw [hsize, (hcells node).children, (hcells node).notes]
          exact ⟨hshaped.children node, hshaped.notes node⟩
      | grow label val position hforest =>
          rw [World.cell, hforest, Forest.cell_add, Forest.size_add]
          split
          next heq => exact ⟨fun _ => heq ▸ rfl, fun ref hlist => by cases hlist⟩
          next hne =>
            refine ⟨fun hlt => hshaped.children node ?_, hshaped.notes node⟩
            exact Nat.lt_of_le_of_ne (Nat.le_of_lt_succ hlt) hne
  | attach hcall hargs hafter =>
      obtain ⟨hparent, child, hvalue, hchild, _⟩ :=
        looseAttaching_addNode (hwithin.call _ _ _ hcall) hargs
      cases hvalue
      rw [hafter, cell_attach hchild hparent, size_attach]
      exact ⟨hshaped.children node, hshaped.notes node⟩

theorem Law.HostChange.shaped {id : HostId} {host : Host} (hwithin : law.Within looseAttaching)
    (hchange : law.HostChange world id host) (hshaped : world.Shaped) (ref : ListRef) :
    (host.stack = some (.list ref) → ∃ number, ref = .stack number) ∧
      host.rules ≠ some (.list ref) := by
  cases hchange with
  | same | records | setNested | advance => exact ⟨hshaped.stack id ref, hshaped.rules id ref⟩
  | made hostClass options rules patterns ownOptions hrules =>
      refine ⟨fun hlist => ?_, fun hlist => ?_⟩
      · cases hlist
      · cases hrules _ hlist
  | mark content hname =>
      rw [Host.stack_setAttribute, Host.rules_setAttribute,
        if_neg (by rcases hname with rfl | rfl <;> decide),
        if_neg (by rcases hname with rfl | rfl <;> decide)]
      exact ⟨hshaped.stack id ref, hshaped.rules id ref⟩
  | define =>
      rw [Host.stack_setAttribute, Host.rules_setAttribute]
      constructor
      · split
        next => exact fun hlist => by cases hlist
        next => exact hshaped.stack id ref
      · split
        next => exact fun hlist => by cases hlist
        next => exact hshaped.rules id ref
  | @write content _ name _ haction =>
      have hfield : name ∉ linkFields := (looseAttaching_write (hwithin.action _ haction)).2
      rw [Host.stack_setAttribute, Host.rules_setAttribute,
        if_neg (by rintro rfl; exact hfield (by decide)),
        if_neg (by rintro rfl; exact hfield (by decide))]
      exact ⟨hshaped.stack id ref, hshaped.rules id ref⟩

theorem Law.HostMove.shaped {id : HostId} {host : Host} (hwithin : law.Within looseAttaching)
    (hmove : law.HostMove world id host) (hshaped : world.Shaped) (ref : ListRef) :
    (host.stack = some (.list ref) → ∃ number, ref = .stack number) ∧
      host.rules ≠ some (.list ref) := by
  cases hmove with
  | change hchange => exact hchange.shaped hwithin hshaped ref
  | restart =>
      refine ⟨fun hstack => ?_, hshaped.rules id ref⟩
      cases hstack
      exact ⟨_, rfl⟩

end ShapeKept

theorem shaped_preserved {law : Law} (hwithin : law.Within looseAttaching) :
    law.Preserves World.Shaped := by
  intro world after hmove hshaped
  have hlinks := (hmove.links hwithin hshaped).shaped hwithin hshaped
  have hhosts := fun id => (hmove.host id).shaped hwithin hshaped
  exact
    { children := fun node => (hlinks node).1
      notes := fun node => (hlinks node).2
      stack := fun id ref => (hhosts id ref).1
      rules := fun id ref => (hhosts id ref).2 }

/-! ## Kinship -/

/-- The node that a value is. -/
def Value.node? : Value → Option NodeId
  | .node id => some id
  | _ => none

/-- The nodes among the children of a node. -/
def World.childNodes (world : World) (node : NodeId) : List NodeId :=
  match (world.cell node).children with
  | .list ref => (world.items ref).toList.filterMap Value.node?
  | _ => []

/-- Both directions of the links between nodes agree: a node is below its parent and nowhere else,
and there it stands once. -/
structure World.Kindred (world : World) : Prop where
  agree : ∀ parent child : NodeId,
    (world.cell child).parent = .node parent ↔ child ∈ world.childNodes parent
  once : ∀ parent : NodeId, (world.childNodes parent).Nodup
  alone : ∀ child one other : NodeId,
    child ∈ world.childNodes one → child ∈ world.childNodes other → one = other

theorem World.Kindred.of_agree {world : World}
    (hagree : ∀ parent child : NodeId,
      (world.cell child).parent = .node parent ↔ child ∈ world.childNodes parent)
    (honce : ∀ parent : NodeId, (world.childNodes parent).Nodup) : world.Kindred where
  agree := hagree
  once := honce
  alone child one other hone hother :=
    Value.node.inj (((hagree one child).mpr hone).symm.trans ((hagree other child).mpr hother))

theorem childNodes_eq {world : World} (hshaped : world.Shaped) (node : NodeId) :
    world.childNodes node = (world.cell node).ownChildren.toList.filterMap Value.node? := by
  by_cases hpresent : node < world.forest.size
  · simp only [World.childNodes, hshaped.children node hpresent]
    rfl
  · rw [World.childNodes, cell_absent hpresent]
    rfl

theorem World.Kindred.congr {world after : World} (hkindred : world.Kindred)
    (hparents : ∀ node, (after.cell node).parent = (world.cell node).parent)
    (hchildren : ∀ node, after.childNodes node = world.childNodes node) : after.Kindred := by
  refine .of_agree (fun parent child => ?_) fun parent => ?_
  · rw [hparents, hchildren]
    exact hkindred.agree parent child
  · rw [hchildren]
    exact hkindred.once parent

/-- Attaching a loose node adds the one link, in both directions. -/
theorem World.Kindred.attach {world : World} (child parent : NodeId) (hkindred : world.Kindred)
    (hloose : (world.cell child).parent = .null)
    {after : World}
    (hparents : ∀ node, (after.cell node).parent =
      if node = child then .node parent else (world.cell node).parent)
    (hchildren : ∀ node, after.childNodes node =
      if node = parent then world.childNodes node ++ [child] else world.childNodes node) :
    after.Kindred := by
  have hnew : ∀ node, child ∉ world.childNodes node := by
    intro node hmem
    cases hloose.symm.trans ((hkindred.agree node child).mpr hmem)
  refine .of_agree (fun node other => ?_) fun node => ?_
  · rw [hparents, hchildren]
    by_cases hother : other = child
    · subst hother
      by_cases hnode : node = parent
      · simp [hnode]
      · simp [hnode, hnew, Ne.symm hnode]
    · by_cases hnode : node = parent
      · simp [hnode, hother, hkindred.agree]
      · simp [hnode, hother, hkindred.agree]
  · rw [hchildren]
    split
    next =>
      refine List.nodup_append.mpr ⟨hkindred.once node, by simp, ?_⟩
      intro other hother last hlast
      rw [List.mem_singleton.mp hlast]
      rintro rfl
      exact hnew node hother
    next => exact hkindred.once node

theorem kindred_preserved {law : Law} (hwithin : law.Within looseAttaching) :
    law.Preserves fun world => world.Shaped ∧ world.Kindred := by
  refine (shaped_preserved hwithin).and fun world after hmove hshaped hafter hkindred => ?_
  cases hmove.links hwithin hshaped with
  | same htrees =>
      refine hkindred.congr (fun node => (htrees.cell_eq node).1) fun node => ?_
      rw [childNodes_eq hafter, childNodes_eq hshaped, (htrees.cell_eq node).2]
  | @attach _ _ child parent hcall hargs hattached =>
      obtain ⟨hparent, _, hvalue, hchild, hloose⟩ :=
        looseAttaching_addNode (hwithin.call _ _ _ hcall) hargs
      cases hvalue
      refine hkindred.attach child parent hloose (fun node => ?_) fun node => ?_
      · rw [hattached, cell_attach hchild hparent]
      · rw [childNodes_eq hafter, childNodes_eq hshaped, hattached, cell_attach hchild hparent]
        by_cases hnode : node = parent <;> simp [hnode, Value.node?]

/-- A start has no node and no parser. -/
theorem kindred_start : World.start.Shaped ∧ World.start.Kindred := by
  constructor
  · refine ⟨fun node hnode => absurd hnode (Nat.not_lt_zero _), ?_, ?_, ?_⟩ <;>
      · intro _ _ hlist
        cases hlist
  · refine .of_agree (fun parent child => ⟨fun hparent => ?_, fun hmem => ?_⟩) fun parent =>
      List.nodup_nil
    · cases hparent
    · cases hmem

/-! ## What parsers attach by themselves -/

/-- A parser attaches by itself what was loose when it looked, and asking for the innermost open
node changes nothing. -/
theorem looseAttaching_clears {law : Law} {before after : World} {callable : Value} {args : Args}
    (hown : law.OwnCall before callable args after) (hfree : before.Unreplaced ["prev"])
    (hasked : looseAttaching.own callable args after = true) :
    looseAttaching.call callable args after = true := by
  cases hown with
  | consume => rfl
  | @attach _ _ _ _ _ child parent node looked middle _ hloose hprev hresolve =>
      have hbound : (Args.of [child]).bind? [.needed "node"] = some [child] :=
        Args.bind?_of_length rfl
      obtain ⟨hpresent, id, rfl, hnode⟩ := looseAttaching_own hasked hbound
      rw [parent_outcome, Prod.mk.injEq, Except.ok.injEq] at hloose
      obtain ⟨hnull, rfl⟩ := hloose
      have hquiet := Law.quiet_resolve (.method parent "add_node") middle
      rw [hresolve] at hquiet
      have hcell := ((sendPrev_quiet hfree hprev).trans hquiet).cell_eq id
      simp only [looseAttaching, World.takesLoose, hbound, Bool.and_eq_true, decide_eq_true_eq]
      exact ⟨hpresent, World.isLoose_iff.mpr ⟨hnode, by rw [hcell, hnull]⟩⟩

/-- What is true of nodes and their links while only loose nodes are attached. -/
def World.Linked (world : World) : Prop :=
  (world.Shaped ∧ world.Kindred) ∧ world.Unreplaced ["prev"]

theorem linked_preserved {law : Law} (hwithin : law.Within looseAttaching) :
    law.Preserves World.Linked :=
  (kindred_preserved hwithin).both
    (unreplaced_preserved (hwithin.guards looseAttaching_guards) (by decide))

theorem looseAttaching_upholds : looseAttaching.Upholds World.Linked where
  preserves := linked_preserved (.refl _)
  clears hown hlinked hasked := looseAttaching_clears hown hlinked.2 hasked

theorem linked_start : World.start.Linked := ⟨kindred_start, unreplaced_start⟩

theorem kinship_throughout {rounds depth : Nat} {body : List Stmt}
    (hkeeps : looseAttaching.Keeps rounds depth body) :
    Throughout World.Kindred rounds depth body :=
  hkeeps.throughout looseAttaching_upholds linked_start fun _ hlinked => hlinked.1.2

/-- A node is opened, closed and given by one rule, given again by the rule that applies it, which
attaches another node below it by hand; then the parse fails. -/
def sharedNodeScript : List Stmt :=
  [.act (.call "Parser" [] []) (some "parser"),
    .act (.send "parser" "set"
      [.datum (.text "outer"),
        .callback "outer"
          [.act (.send "self" "apply" [.datum (.text "inner")] []) (some "node"),
            .branch (.present (.var "node"))
              [.act (.call "Node" [.datum (.text "extra")] []) (some "extra"),
                .act (.send "node" "add_node" [.var "extra"] []) none] [],
            .give (.var "node")]] []) none,
    .act (.send "parser" "set"
      [.datum (.text "inner"),
        .callback "inner"
          [.act (.send "self" "position" [] []) (some "stamp"),
            .act (.send "self" "match" [.datum (.text "a")] []) (some "found"),
            .branch (.not (.present (.var "found"))) [.give (.datum .null)] [],
            .act (.send "self" "node" [.var "stamp", .datum (.text "leaf")] []) (some "node"),
            .act (.send "self" "push" [.var "node"] []) none,
            .act (.send "self" "pop" [.datum (.text "leaf")] []) none,
            .give (.var "node")]] []) none,
    .attempt [.act (.send "parser" "parse" [.datum (.text "aab")] []) none] "fault" []]

theorem kinship_throughout_sharedNode :
    looseAttaching.Keeps 10 10 sharedNodeScript ∧
      Throughout World.Kindred 10 10 sharedNodeScript :=
  ⟨by decide +kernel, kinship_throughout (by decide +kernel)⟩

end Rulebook
