import Mathlib.Logic.Relation
import Rulebook.Proofs.Attaching

/-!
# Trees have a root

Parsers attach nodes below their innermost open node. As long as no root is attached, and scripts
attach nowhere else, the parents of an attached node lead to the root of a parser, and to no node
twice. Nothing but the parent of a node is looked at before it is attached, so a rule that gives the
root it was handed makes that node its own parent.
-/

namespace Rulebook

open Run

/-- Attributes that a script could put in the place of the root, of the list of open nodes, and of
the methods by which nodes are attached. -/
def treeFields : List String := ["ast", "stack", "prev", "add_node"]

/-- Whether a node is the root of a parser. -/
def World.isRoot (world : World) (node : NodeId) : Bool :=
  world.hosts.any fun host =>
    match host.root with
    | some (.node root) => root == node
    | _ => false

/-- Whether a node is the innermost open node of a parser. -/
def World.isInnermost (world : World) (node : NodeId) : Bool :=
  world.hosts.any fun host =>
    match host.stack with
    | some (.list ref) =>
      match (world.items ref).back? with
      | some (.node innermost) => innermost == node
      | _ => false
    | _ => false

/-- Whether nothing stands below the root of a parser. -/
def World.hasBareRoot (world : World) (id : HostId) : Bool :=
  match (world.host id).root with
  | some (.node root) => (world.childNodes root).isEmpty
  | _ => true

/-- Whether no root is among the arguments of a node's `add_node`. -/
def World.sparesRoots (world : World) (args : Args) : Bool :=
  match args.bind? [.needed "node"] with
  | some [.node child] => !world.isRoot child
  | _ => true

/-- Whether what a parser is told to open is a node. -/
def Args.opensNode (args : Args) : Bool :=
  match args.bind? ParserMethod.push.params with
  | some [.node _] => true
  | some _ => false
  | none => true

/-- Only nodes are opened, no root is ever attached, scripts attach nodes themselves only below
innermost open nodes, and a parser begins anew only while nothing stands below its root. Nothing is
put in the place of what holds the trees. -/
def treeBuilding : Law where
  call callable args world :=
    looseAttaching.call callable args world &&
      match callable with
      | .method _ (.node parent) "add_node" => world.isInnermost parent && world.sparesRoots args
      | .method _ (.host id) "reset" => world.hasBareRoot id
      | .method _ (.host _) "push" => args.opensNode
      | .method _ (.host _) "define" => args.sparesNames treeFields
      | _ => true
  own callable args world :=
    looseAttaching.own callable args world &&
      match callable with
      | .method _ (.node _) "add_node" => world.sparesRoots args
      | _ => true
  action action :=
    looseAttaching.action action &&
      match action with
      | .write _ name _ => name ∉ treeFields
      | _ => true

theorem treeBuilding_within : treeBuilding.Within looseAttaching where
  call _ _ _ hcall := (Bool.and_eq_true_iff.mp hcall).1
  own _ _ _ hown := (Bool.and_eq_true_iff.mp hown).1
  action _ haction := (Bool.and_eq_true_iff.mp haction).1

theorem treeBuilding_guards : treeBuilding.Guards treeFields where
  define hcall := (Bool.and_eq_true_iff.mp hcall).2
  write haction := of_decide_eq_true (Bool.and_eq_true_iff.mp haction).2

/-! ## Standing below a root -/

/-- A node is the parent of another. -/
def World.IsParent (world : World) (parent child : NodeId) : Prop :=
  (world.cell child).parent = .node parent

/-- A node is the root of a parser. -/
def World.IsRoot (world : World) (node : NodeId) : Prop :=
  ∃ id : HostId, (world.host id).root = some (.node node)

/-- The trees of a world: every root has no parent, the parents of every node that has one lead to
a root, and no node stands below itself. -/
structure World.Rooted (world : World) : Prop where
  loose : ∀ root, world.IsRoot root → (world.cell root).parent = .null
  reached : ∀ node, (world.cell node).parent ≠ .null →
    ∃ root, world.IsRoot root ∧ Relation.TransGen world.IsParent root node
  acyclic : ∀ node, ¬Relation.TransGen world.IsParent node node

section Below

variable {world : World} {root node parent : NodeId}

theorem World.IsParent.unique {other : NodeId} (hparent : world.IsParent parent node)
    (hother : world.IsParent other node) : parent = other :=
  Value.node.inj (hparent.symm.trans hother)

/-- A node that stands below itself has a parent that does. -/
theorem World.IsParent.cycle (hparent : world.IsParent parent node)
    (hcycle : Relation.TransGen world.IsParent node node) :
    Relation.TransGen world.IsParent parent parent := by
  obtain ⟨other, hbelow, hother⟩ := Relation.TransGen.tail'_iff.mp hcycle
  obtain rfl := hparent.unique hother
  exact Relation.TransGen.head' hparent hbelow

/-- From a node that stands below itself no way leads up to a node without a parent. -/
theorem World.not_cycle (hloose : (world.cell root).parent = .null)
    (hbelow : Relation.TransGen world.IsParent root node) :
    ¬Relation.TransGen world.IsParent node node := by
  induction hbelow with
  | single hparent =>
      intro hcycle
      obtain ⟨other, _, hother⟩ := Relation.TransGen.tail'_iff.mp (hparent.cycle hcycle)
      cases hloose.symm.trans hother
  | tail _ hparent ih => exact fun hcycle => ih (hparent.cycle hcycle)

theorem World.Rooted.of_reached
    (hloose : ∀ root, world.IsRoot root → (world.cell root).parent = .null)
    (hreached : ∀ node, (world.cell node).parent ≠ .null →
      ∃ root, world.IsRoot root ∧ Relation.TransGen world.IsParent root node) : world.Rooted where
  loose := hloose
  reached := hreached
  acyclic node hcycle := by
    obtain ⟨other, _, hother⟩ := Relation.TransGen.tail'_iff.mp hcycle
    obtain ⟨root, hroot, hbelow⟩ := hreached node (by rw [hother]; simp)
    exact World.not_cycle (hloose root hroot) hbelow hcycle

end Below

/-! ## Where nodes stand while the law is kept -/

/-- What the law keeps true of parsers and their trees. -/
structure World.Grounded (world : World) : Prop where
  root : ∀ (id : HostId) (value : Value), (world.host id).root = some value →
    ∃ node, value = .node node
  stack : ∀ (id : HostId) (value : Value), (world.host id).stack = some value →
    ∃ number, value = .list (.stack number) ∧ number < world.openStacks.size
  /-- An open node is the root of the parser, or it was attached. -/
  opened : ∀ (id : HostId) (number : Nat), (world.host id).stack = some (.list (.stack number)) →
    ∀ value ∈ world.items (.stack number), ∃ node, value = .node node ∧
      ((world.host id).root = some (.node node) ∨ (world.cell node).parent ≠ .null)
  loose : ∀ root, world.IsRoot root → (world.cell root).parent = .null
  reached : ∀ node, (world.cell node).parent ≠ .null →
    ∃ root, world.IsRoot root ∧ Relation.TransGen world.IsParent root node

section Grounded

variable {law : Law} {inv : World → Prop} {world after : World}

/-- A lawful change puts nothing in the place of what holds the trees. -/
theorem Law.HostChange.holds {id : HostId} {host : Host} (hguards : law.Guards treeFields)
    (hchange : law.HostChange world id host) :
    host.root = (world.host id).root ∧ host.stack = (world.host id).stack := by
  have hother : ∀ {name : String} (content : Value), name ∉ treeFields →
      ((world.host id).setAttribute name content).root = (world.host id).root ∧
        ((world.host id).setAttribute name content).stack = (world.host id).stack := by
    intro name content hname
    simp only [treeFields, List.mem_cons, List.not_mem_nil, or_false, not_or] at hname
    constructor
    · rw [Host.root_setAttribute, if_neg hname.1]
    · rw [Host.stack_setAttribute, if_neg hname.2.1]
  cases hchange with
  | same | records | setNested | advance => exact ⟨rfl, rfl⟩
  | made _ _ _ _ _ _ _ hnew =>
      rw [hnew, World.host_size]
      exact ⟨rfl, rfl⟩
  | mark content hname => exact hother content (by rcases hname with rfl | rfl <;> decide)
  | define hcall hargs =>
      have hspared := hguards.define hcall
      simp only [Args.sparesNames, ParserMethod.params, hargs, decide_eq_true_eq] at hspared
      exact hother _ hspared
  | write content haction => exact hother content (hguards.write haction)

/-- Trees stand as before when parents, roots and lists of open nodes do, and the only nodes opened
are attached ones. -/
theorem World.Grounded.congr (hgrounded : world.Grounded)
    (hparents : ∀ node, (after.cell node).parent = (world.cell node).parent)
    (hhosts : ∀ id, (after.host id).root = (world.host id).root ∧
      (after.host id).stack = (world.host id).stack)
    (hsize : after.openStacks.size = world.openStacks.size)
    (hitems : ∀ number, ∀ value ∈ after.items (.stack number),
      value ∈ world.items (.stack number) ∨
        ∃ node, value = .node node ∧ (world.cell node).parent ≠ .null) : after.Grounded := by
  have hparent : after.IsParent = world.IsParent := by
    funext parent child
    rw [World.IsParent, World.IsParent, hparents]
  have hroot : ∀ node, after.IsRoot node ↔ world.IsRoot node := by
    intro node
    simp only [World.IsRoot, hhosts]
  refine ⟨fun id value => ?_, fun id value => ?_, fun id number => ?_, fun root => ?_,
    fun node => ?_⟩
  · rw [(hhosts id).1]
    exact hgrounded.root id value
  · rw [(hhosts id).2, hsize]
    exact hgrounded.stack id value
  · rw [(hhosts id).1, (hhosts id).2]
    intro hstack value hvalue
    rcases hitems number value hvalue with hold | ⟨node, rfl, hattached⟩
    · simp only [hparents]
      exact hgrounded.opened id number hstack value hold
    · exact ⟨node, rfl, Or.inr (by rwa [hparents])⟩
  · rw [hroot, hparents]
    exact hgrounded.loose root
  · simp only [hroot, hparents, hparent]
    exact hgrounded.reached node

theorem World.hosts_getElem {id : HostId} (hpresent : id < world.hosts.size) :
    world.hosts[id] = world.host id := by
  simp [World.host, Array.getD_eq_getD_getElem?, hpresent]

/-- To find a host by what it is like is to find its number. -/
theorem World.any_hosts_iff {test : Host → Bool} (hdefault : test default = false) :
    world.hosts.any test = true ↔ ∃ id : HostId, test (world.host id) = true := by
  constructor
  · intro hany
    obtain ⟨id, hpresent, htest⟩ := Array.any_eq_true.mp hany
    exact ⟨id, World.hosts_getElem hpresent ▸ htest⟩
  · rintro ⟨id, htest⟩
    have hpresent : id < world.hosts.size := by
      by_contra habsent
      rw [World.host, Array.getD_eq_getD_getElem?,
        Array.getElem?_eq_none (Nat.le_of_not_lt habsent)] at htest
      cases hdefault.symm.trans htest
    exact Array.any_eq_true.mpr ⟨id, hpresent, (World.hosts_getElem hpresent).symm ▸ htest⟩

theorem World.isRoot_iff {node : NodeId} : world.isRoot node = true ↔ world.IsRoot node := by
  rw [World.isRoot, World.any_hosts_iff rfl]
  refine exists_congr fun id => ?_
  split
  next root hroot => rw [beq_iff_eq, hroot, Option.some.injEq, Value.node.injEq]
  next hother => exact iff_of_false Bool.false_ne_true fun hroot => hother node hroot

theorem World.isInnermost_iff {node : NodeId} : world.isInnermost node = true ↔
    ∃ id ref, (world.host id).stack = some (.list ref) ∧
      (world.items ref).back? = some (.node node) := by
  rw [World.isInnermost, World.any_hosts_iff rfl]
  refine exists_congr fun id => ?_
  split
  next ref hstack =>
    simp only [hstack, Option.some.injEq, Value.list.injEq, exists_eq_left']
    split
    next innermost hlast => rw [beq_iff_eq, hlast, Option.some.injEq, Value.node.injEq]
    next hother => exact iff_of_false Bool.false_ne_true fun hlast => hother node hlast
  next hother =>
    refine iff_of_false Bool.false_ne_true ?_
    rintro ⟨ref, hstack, _⟩
    exact hother ref hstack

/-- An innermost open node stands in a tree. -/
theorem World.Grounded.innermost {node : NodeId} (hgrounded : world.Grounded)
    (hinnermost : world.isInnermost node = true) :
    ∃ root, world.IsRoot root ∧ Relation.ReflTransGen world.IsParent root node := by
  obtain ⟨id, ref, hstack, hlast⟩ := World.isInnermost_iff.mp hinnermost
  obtain ⟨number, hvalue, _⟩ := hgrounded.stack id _ hstack
  cases hvalue
  obtain ⟨other, hother, hstands⟩ :=
    hgrounded.opened id number hstack _ (Array.mem_of_back? hlast)
  cases hother
  rcases hstands with hroot | hattached
  · exact ⟨node, ⟨id, hroot⟩, .refl⟩
  · obtain ⟨root, hroot, hbelow⟩ := hgrounded.reached node hattached
    exact ⟨root, hroot, hbelow.to_reflTransGen⟩

theorem World.Grounded.attach {child parent : NodeId} (hgrounded : world.Grounded)
    (hchild : child < world.forest.size) (hparent : parent < world.forest.size)
    (hloose : (world.cell child).parent = .null) (hspared : ¬world.IsRoot child)
    (hinnermost : world.isInnermost parent = true) : (world.attach child parent).Grounded := by
  have hparents : ∀ node, ((world.attach child parent).cell node).parent =
      if node = child then .node parent else (world.cell node).parent := by
    intro node
    rw [cell_attach hchild hparent]
  have hkept : ∀ other node, world.IsParent other node →
      (world.attach child parent).IsParent other node := by
    intro other node hother
    rw [World.IsParent, hparents, if_neg]
    · exact hother
    · rintro rfl
      cases hloose.symm.trans hother
  refine ⟨hgrounded.root, hgrounded.stack, fun id number hstack value hvalue => ?_,
    fun root hroot => ?_, fun node hnode => ?_⟩
  · obtain ⟨node, rfl, hstands⟩ := hgrounded.opened id number hstack value hvalue
    refine ⟨node, rfl, hstands.imp_right fun hattached => ?_⟩
    rw [hparents]
    split
    next => simp
    next => exact hattached
  · rw [hparents, if_neg]
    · exact hgrounded.loose root hroot
    · rintro rfl
      exact hspared hroot
  · by_cases hsame : node = child
    · subst hsame
      obtain ⟨root, hroot, hbelow⟩ := hgrounded.innermost hinnermost
      refine ⟨root, hroot, .tail' (Relation.ReflTransGen.mono hkept _ _ hbelow) ?_⟩
      rw [World.IsParent, hparents, if_pos rfl]
    · rw [hparents, if_neg hsame] at hnode
      obtain ⟨root, hroot, hbelow⟩ := hgrounded.reached node hnode
      exact ⟨root, hroot, Relation.TransGen.mono hkept _ _ hbelow⟩

/-- A parser that begins anew leaves nothing behind that is not below a root. -/
theorem World.Grounded.restart {id : HostId} (input : Value) (hgrounded : world.Grounded)
    (hkindred : world.Kindred)
    (hbare : ∀ root, (world.host id).root = some (.node root) → world.childNodes root = []) :
    (world.restart id input).Grounded := by
  have hparents := World.parent_restart world id input
  have hparent : (world.restart id input).IsParent = world.IsParent := by
    funext parent child
    rw [World.IsParent, World.IsParent, hparents]
  refine
    { root := fun other value => ?root
      stack := fun other value => ?stack
      opened := fun other number => ?opened
      loose := fun root hroot => ?loose
      reached := fun node hnode => ?reached }
  case root =>
    rw [World.host_restart_of]
    split
    next => exact fun hvalue => ⟨_, (Option.some.inj hvalue).symm⟩
    next => exact hgrounded.root other value
  case stack =>
    rw [World.host_restart_of, World.size_openStacks_restart]
    split
    next => exact fun hvalue => ⟨_, (Option.some.inj hvalue).symm, Nat.lt_succ_self _⟩
    next =>
      intro hvalue
      obtain ⟨number, rfl, hnumber⟩ := hgrounded.stack other value hvalue
      exact ⟨number, rfl, Nat.lt_succ_of_lt hnumber⟩
  case opened =>
    rw [World.host_restart_of]
    simp only [World.items_restart, hparents]
    split
    next =>
      intro hstack value hvalue
      cases hstack
      rw [if_pos rfl] at hvalue
      exact ⟨_, by simpa using hvalue, Or.inl rfl⟩
    next =>
      intro hstack
      obtain ⟨_, hvalue, hnumber⟩ := hgrounded.stack other _ hstack
      cases hvalue
      rw [if_neg (Nat.ne_of_lt hnumber)]
      exact hgrounded.opened other number hstack
  case loose =>
    obtain ⟨other, hother⟩ := hroot
    rw [World.host_restart_of] at hother
    rw [hparents]
    split at hother
    next =>
      cases hother
      rw [cell_absent (Nat.lt_irrefl _)]
      rfl
    next => exact hgrounded.loose root ⟨other, hother⟩
  case reached =>
    rw [hparents] at hnode
    obtain ⟨root, ⟨other, hother⟩, hbelow⟩ := hgrounded.reached node hnode
    refine ⟨root, ⟨other, ?_⟩, hparent ▸ hbelow⟩
    rw [World.host_restart_of, if_neg]
    · exact hother
    · rintro ⟨rfl, _⟩
      -- what stands below a root has one of its children above it
      obtain ⟨child, hchild, _⟩ := Relation.TransGen.head'_iff.mp hbelow
      have hmem := (hkindred.agree root child).mp hchild
      rw [hbare root hother] at hmem
      cases hmem

end Grounded

theorem World.Grounded.opensNodes {world : World} (hgrounded : world.Grounded) (id : HostId) :
    world.OpensNodes id := by
  intro value hstack
  obtain ⟨number, rfl, _⟩ := hgrounded.stack id value hstack
  refine ⟨_, rfl, fun item hitem => ?_⟩
  obtain ⟨node, rfl, _⟩ := hgrounded.opened id number hstack item hitem
  exact ⟨node, rfl⟩

/-- What is true of parsers and their trees while the law is kept. -/
def World.Built (world : World) : Prop :=
  (world.Linked ∧ world.NodesUnreplaced treeFields) ∧ world.Grounded

/-- What a parser opens is a node, and that node has a parent by then. -/
theorem opened_attached {law : Law} {before world : World} {caller : Value}
    {rounds depth serial : Nat} {id : HostId} {args : Args} {value : Value}
    (hwithin : law.Within treeBuilding)
    (hcall : law.call (.method serial (.host id) "push") args before = true)
    (hargs : args.bind? ParserMethod.push.params = some [value]) (hbefore : before.Built)
    (hattached : (Parser.attachLoose (law.kernel caller rounds depth) id value).outcome before =
      (.ok (), world)) :
    ∃ node, value = .node node ∧ (world.cell node).parent ≠ .null := by
  obtain ⟨⟨⟨⟨hshaped, _⟩, hprevs⟩, hfree⟩, hgrounded⟩ := hbefore
  obtain ⟨node, rfl⟩ : ∃ node, value = .node node := by
    have hopens := (Bool.and_eq_true_iff.mp (hwithin.call _ _ _ hcall)).2
    simp only [Args.opensNode, hargs] at hopens
    split at hopens
    next node heq => exact ⟨node, by cases heq; rfl⟩
    next => cases hopens
    next heq => cases heq
  refine ⟨node, rfl, ?_⟩
  rcases attachLoose_ok (hwithin.trans treeBuilding_within) hshaped hprevs (by decide) hfree
    (hgrounded.opensNodes id) hattached with
    ⟨hparent, rfl⟩ | ⟨_, _, parent, _, _, _, hparent, hnode, rfl⟩
  · exact hparent
  · change ((before.attach node parent).cell node).parent ≠ .null
    rw [cell_attach hnode hparent]
    simp

theorem built_preserved {law : Law} (hwithin : law.Within treeBuilding) :
    law.Preserves World.Built := by
  have hloosely := hwithin.trans treeBuilding_within
  have hfree : law.Preserves fun world => world.Linked ∧ world.NodesUnreplaced treeFields :=
    (linked_preserved hloosely).both
      (nodesUnreplaced_preserved (hwithin.guards treeBuilding_guards) (by decide))
  refine hfree.and ?_
  rintro world after hmove ⟨⟨⟨hshaped, hkindred⟩, _⟩, _⟩ - hgrounded
  cases hmove.shaped hloosely hshaped with
  | change hchange =>
      have hholds := fun id => (hchange.host id).holds (hwithin.guards treeBuilding_guards)
      refine hgrounded.congr (fun node => ((hchange.links hloosely).cell_eq node).1)
        hholds ?_ fun number value hvalue => Or.inl ?_
      · rw [hchange.openStacks]
      · rwa [World.items, hchange.openStacks] at hvalue
  | restart id input hcause =>
      refine hgrounded.restart input hkindred fun root hroot => ?_
      rcases hcause with hnone | ⟨serial, args, hcall⟩
      · cases hroot.symm.trans hnone
      · have hbare := (Bool.and_eq_true_iff.mp (hwithin.call _ _ _ hcall)).2
        simpa [World.hasBareRoot, hroot] using hbare
  | openNode hcall hargs hbefore hattached =>
      obtain ⟨node, rfl, hparent⟩ := opened_attached hwithin hcall hargs hbefore hattached
      refine hgrounded.congr (fun _ => rfl) (fun _ => ⟨rfl, rfl⟩) Array.size_modify
        fun other value hvalue => ?_
      exact (world.mem_push_items hvalue).imp_right fun hpushed => ⟨node, hpushed.2, hparent⟩
  | closeNode =>
      exact hgrounded.congr (fun _ => rfl) (fun _ => ⟨rfl, rfl⟩) Array.size_modify
        fun other value hvalue => Or.inl (world.mem_pop_items hvalue)
  | attach hcall hargs =>
      obtain ⟨hpresent, _, hvalue, hchild, hloose⟩ :=
        looseAttaching_addNode (hloosely.call _ _ _ hcall) hargs
      cases hvalue
      have hbuilds := (Bool.and_eq_true_iff.mp (hwithin.call _ _ _ hcall)).2
      simp only [World.sparesRoots, hargs, Bool.and_eq_true, Bool.not_eq_true'] at hbuilds
      refine hgrounded.attach hchild hpresent hloose (fun hroot => ?_) hbuilds.1
      cases hbuilds.2.symm.trans (World.isRoot_iff.mpr hroot)

/-! ## What parsers attach by themselves -/

/-- A parser attaches by itself below its innermost open node. -/
theorem attach_isInnermost {law : Law} {before middle after : World} {caller parent : Value}
    {rounds depth number : Nat} {id : HostId} {node : NodeId} (hbuilt : before.Built)
    (hprev : ((law.kernel caller rounds depth).sendHost id "prev" []).outcome before =
      (.ok parent, middle))
    (hresolve : (Law.resolve (.method parent "add_node")).outcome middle =
      (.ok (.method number (.node node) "add_node"), after)) : after.isInnermost node = true := by
  obtain ⟨⟨⟨_, hprevs⟩, hfree⟩, hgrounded⟩ := hbuilt
  obtain ⟨ref, other, hstack, rfl, hlast, rfl⟩ :=
    sendPrev_last hprevs (hgrounded.opensNodes id) hprev
  have hfree' : (before.withSerial (before.serial + 1)).NodesUnreplaced treeFields := hfree
  obtain ⟨hcallable, rfl⟩ := addNode_resolved (by decide) hfree' hresolve
  cases hcallable
  exact World.isInnermost_iff.mpr ⟨id, ref, hstack, hlast⟩

theorem treeBuilding_upholds : treeBuilding.Upholds World.Built where
  preserves := built_preserved (.refl _)
  clears := by
    intro before callable args after hown hbuilt hasked
    obtain ⟨hasked, hspared⟩ := Bool.and_eq_true_iff.mp hasked
    refine Bool.and_eq_true_iff.mpr ⟨looseAttaching_clears hown hbuilt.1.1.2 hasked, ?_⟩
    cases hown with
    | consume => rfl
    | attach hloose hprev hresolve =>
        obtain ⟨_, child, rfl, _⟩ := looseAttaching_own hasked (Args.bind?_of_length rfl)
        rw [parent_outcome, Prod.mk.injEq] at hloose
        obtain ⟨_, rfl⟩ := hloose
        exact Bool.and_eq_true_iff.mpr ⟨attach_isInnermost hbuilt hprev hresolve, hspared⟩

theorem built_start : World.start.Built := by
  refine ⟨⟨linked_start, fun _ _ _ => rfl⟩, ?_, ?_, ?_, ?_, fun node hnode => absurd rfl hnode⟩
  · intro id value hvalue
    cases hvalue
  · intro id value hvalue
    cases hvalue
  · intro id number hstack
    cases hstack
  · rintro root ⟨id, hroot⟩
    cases hroot

theorem trees_rooted {rounds depth : Nat} {body : List Stmt}
    (hkeeps : treeBuilding.Keeps rounds depth body) :
    Throughout World.Rooted rounds depth body :=
  hkeeps.throughout treeBuilding_upholds built_start fun _ hbuilt =>
    .of_reached hbuilt.2.loose hbuilt.2.reached

/-- Lists are opened and closed by rules of their own, the rule that closes one gives it again, and
an item is made by one rule and given again by the rule that applies it; then a list stays open. -/
def listsScript : List Stmt :=
  [.act (.call "Parser" [] []) (some "parser"),
    .act (.send "parser" "set"
      [.datum (.text "open"),
        .callback "open"
          [.act (.send "self" "position" [] []) (some "stamp"),
            .act (.send "self" "match" [.datum (.text "[(]")] []) (some "found"),
            .branch (.present (.var "found"))
              [.act (.send "self" "node" [.var "stamp", .datum (.text "list")] []) (some "node"),
                .act (.send "self" "push" [.var "node"] []) none] []]] []) none,
    .act (.send "parser" "set"
      [.datum (.text "close"),
        .callback "close"
          [.act (.send "self" "match" [.datum (.text "[)]")] []) (some "found"),
            .branch (.present (.var "found"))
              [.act (.send "self" "pop" [.datum (.text "list")] []) (some "node"),
                .give (.var "node")] []]] []) none,
    .act (.send "parser" "set"
      [.datum (.text "item"),
        .callback "item"
          [.act (.send "self" "apply" [.datum (.text "letter")] []) (some "node"),
            .give (.var "node")]] []) none,
    .act (.send "parser" "set"
      [.datum (.text "letter"),
        .callback "letter"
          [.act (.send "self" "position" [] []) (some "stamp"),
            .act (.send "self" "match" [.datum (.text "[a-z]")] []) (some "found"),
            .branch (.present (.var "found"))
              [.act (.send "self" "node" [.var "stamp", .datum (.text "letter")] []) (some "node"),
                .give (.var "node")] []]] []) none,
    .attempt [.act (.send "parser" "parse" [.datum (.text "(a)(b")] []) none] "fault" []]

theorem trees_rooted_lists :
    treeBuilding.Keeps 12 12 listsScript ∧ Throughout World.Rooted 12 12 listsScript :=
  ⟨by decide +kernel, trees_rooted (by decide +kernel)⟩

/-- A rule gives the innermost open node, which is the root. -/
def rootGivenScript : List Stmt :=
  [.act (.call "Parser" [] []) (some "parser"),
    .act (.send "parser" "set"
      [.datum (.text "top"),
        .callback "top"
          [.act (.send "self" "match" [.datum (.text "a")] []) none,
            .act (.send "self" "prev" [] []) (some "node"),
            .give (.var "node")]] []) none,
    .act (.send "parser" "parse" [.datum (.text "a")] []) (some "root")]

/-- The root that was given is its own parent. -/
theorem rootGiven_not_rooted :
    ¬((Script.runAll (Kernel.ofDepth 10 10) rootGivenScript).outcome .start).2.Rooted := by
  have hroot : ((Script.runAll (Kernel.ofDepth 10 10) rootGivenScript).outcome .start).2.isRoot 1 =
      true := by decide +kernel
  have hpresent : 1 < ((Script.runAll (Kernel.ofDepth 10 10) rootGivenScript).outcome
      .start).2.forest.size := by decide +kernel
  have hattached : ((Script.runAll (Kernel.ofDepth 10 10) rootGivenScript).outcome
      .start).2.isLoose 1 = false := by decide +kernel
  intro hrooted
  have hloose := hrooted.loose 1 (World.isRoot_iff.mp hroot)
  cases hattached.symm.trans (World.isLoose_iff.mpr ⟨hpresent, hloose⟩)

end Rulebook
