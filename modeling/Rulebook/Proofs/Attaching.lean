import Rulebook.Proofs.Kinship

/-!
# What comes of attaching

`push` and `apply` attach a loose node by way of two methods, which scripts can put something else
in front of. As long as nobody does, a loose node that was to be attached stands below the innermost
open node afterwards, whatever else the script has done.
-/

namespace Rulebook

open Run

/-- The open nodes of a host are nodes, in a list. -/
def World.OpensNodes (world : World) (id : HostId) : Prop :=
  ∀ value, (world.host id).stack = some value → ∃ ref, value = .list ref ∧
    ∀ item ∈ world.items ref, ∃ node, item = .node node

section Calls

variable {law : Law} {caller : Value} {rounds depth : Nat} {world after : World} {id : HostId}
  {value : Value}

/-- The innermost open node is the last of the list of open nodes. -/
theorem prev_ok (hopens : world.OpensNodes id)
    (houtcome : (Parser.prev id).outcome world = (.ok value, after)) :
    ∃ ref node, (world.host id).stack = some (.list ref) ∧ value = .node node ∧
      (world.items ref).back? = some (.node node) ∧ after = world := by
  rw [Parser.prev] at houtcome
  obtain ⟨stack, middle, hpart, hitem⟩ := bind_ok houtcome
  obtain ⟨hstack, rfl⟩ := hostPart_ok hpart
  obtain ⟨ref, rfl, hnodes⟩ := hopens stack hstack
  by_cases hempty : (middle.items ref).size = 0
  · rw [getItem, outcome_bind_ok (outcome_items _ _), Array.eq_empty_of_size_eq_zero hempty]
      at hitem
    cases hitem
  · have hlast : (middle.items ref).back? = some (middle.items ref).back! := by
      rw [Array.eq_push_pop_back!_of_size_ne_zero hempty]
      simp
    obtain ⟨node, hnode⟩ := hnodes _ (Array.mem_of_back? hlast)
    cases (getItem_last (Nat.pos_of_ne_zero hempty)).symm.trans hitem
    exact ⟨ref, node, hstack, hnode, hnode ▸ hlast, rfl⟩

theorem sendPrev_last (hprevs : world.Unreplaced ["prev"]) (hopens : world.OpensNodes id)
    (houtcome : ((law.kernel caller rounds depth).sendHost id "prev" []).outcome world =
      (.ok value, after)) :
    ∃ ref node, (world.host id).stack = some (.list ref) ∧ value = .node node ∧
      (world.items ref).back? = some (.node node) ∧
      after = world.withSerial (world.serial + 1) := by
  have hopens' : (world.withSerial (world.serial + 1)).OpensNodes id := hopens
  exact prev_ok hopens' (sendPrev_ok hprevs houtcome)

/-- A node that nothing stands before its `add_node` has that method. -/
theorem resolve_addNode {parent : NodeId}
    (hfree : (world.cell parent).extras.get? "add_node" = none) :
    (Law.resolve (.method (.node parent) "add_node")).outcome world =
      (.ok (.method world.serial (.node parent) "add_node"),
        world.withSerial (world.serial + 1)) := by
  have hextra : (world.cell parent).attribute? "add_node" = none := hfree
  change (nodeAttribute parent "add_node").outcome world = _
  rw [nodeAttribute, outcome_bind_ok (outcome_cell parent world), if_neg (by decide),
    if_neg (by decide), hextra]
  rfl

theorem addNode_resolved {names : List String} {parent : NodeId} {callable : Value}
    (hname : "add_node" ∈ names) (hfree : world.NodesUnreplaced names)
    (hresolve : (Law.resolve (.method (.node parent) "add_node")).outcome world =
      (.ok callable, after)) :
    callable = .method world.serial (.node parent) "add_node" ∧
      after = world.withSerial (world.serial + 1) := by
  cases (resolve_addNode (hfree parent _ hname)).symm.trans hresolve
  exact ⟨rfl, rfl⟩

/-- Whatever is asked of the call, a node that is attached and the node that it is attached to are
there. -/
theorem looseAttaching_present {callee : Callee} {serial : Nat} {parent : NodeId} {args : Args}
    (hasks : looseAttaching.asks caller callee (.method serial (.node parent) "add_node") args
      world = true)
    (hargs : args.bind? [.needed "node"] = some [value]) :
    parent < world.forest.size ∧ ∃ child, value = .node child ∧ child < world.forest.size := by
  unfold Law.asks at hasks
  split at hasks
  next => exact looseAttaching_own hasks hargs
  next =>
    obtain ⟨hparent, child, hvalue, hchild, _⟩ := looseAttaching_addNode hasks hargs
    exact ⟨hparent, child, hvalue, hchild⟩

theorem sendAddNode_ok {names : List String} {parent child : NodeId}
    (hwithin : law.Within looseAttaching) (hshaped : world.Shaped) (hname : "add_node" ∈ names)
    (hfree : world.NodesUnreplaced names)
    (houtcome : ((law.kernel caller rounds depth).send (.node parent) "add_node"
      [.node child]).outcome world = (.ok value, after)) :
    parent < world.forest.size ∧ child < world.forest.size ∧
      ∃ serial, after = (world.attach child parent).withSerial serial := by
  obtain ⟨less, callable, middle, hresolve, hasks, hcall⟩ := Law.invokeAt_ok houtcome
  obtain ⟨rfl, rfl⟩ := addNode_resolved hname hfree hresolve
  obtain ⟨hparent, _, hvalue, hchild⟩ := looseAttaching_present (hwithin.asks hasks) rfl
  cases hvalue
  have hchildren : ((world.withSerial (world.serial + 1)).cell parent).children =
      .list (.children parent) := hshaped.children parent hparent
  cases (callNode_addNode _ child hchildren).symm.trans hcall
  exact ⟨hparent, hchild, _, rfl⟩

/-- A node that was to be attached below the innermost open node either had a parent, and nothing
happened, or stands below that node now. -/
theorem attachLoose_ok {names : List String} {child : NodeId}
    (hwithin : law.Within looseAttaching) (hshaped : world.Shaped)
    (hprevs : world.Unreplaced ["prev"]) (hname : "add_node" ∈ names)
    (hfree : world.NodesUnreplaced names)
    (hopens : world.OpensNodes id)
    (houtcome : (Parser.attachLoose (law.kernel caller rounds depth) id (.node child)).outcome
      world = (.ok (), after)) :
    (world.cell child).parent ≠ .null ∧ after = world ∨
      (world.cell child).parent = .null ∧ ∃ ref parent serial,
        (world.host id).stack = some (.list ref) ∧
        (world.items ref).back? = some (.node parent) ∧
        parent < world.forest.size ∧ child < world.forest.size ∧
        after = (world.attach child parent).withSerial serial := by
  rw [Parser.attachLoose, outcome_bind_ok (parent_outcome world child)] at houtcome
  split at houtcome
  next hloose =>
    refine Or.inr ⟨hloose, ?_⟩
    obtain ⟨value, middle, hprev, hrest⟩ := bind_ok houtcome
    obtain ⟨ref, parent, hstack, rfl, hlast, rfl⟩ := sendPrev_last hprevs hopens hprev
    obtain ⟨attached, later, hattach, hdone⟩ := bind_ok hrest
    cases hdone
    have hshaped' : (world.withSerial (world.serial + 1)).Shaped :=
      ⟨hshaped.children, hshaped.notes, hshaped.stack, hshaped.rules⟩
    obtain ⟨hparent, hchild, serial, rfl⟩ := sendAddNode_ok hwithin hshaped' hname hfree hattach
    exact ⟨ref, parent, serial, hstack, hlast, hparent, hchild, rfl⟩
  next hother =>
    cases houtcome
    exact Or.inl ⟨hother, rfl⟩

end Calls

end Rulebook
