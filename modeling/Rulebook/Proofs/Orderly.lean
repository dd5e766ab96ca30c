import Rulebook.Proofs.Attaching
import Rulebook.Proofs.Truthful

/-!
# Parsers in order

What rules may do while a parser reads, so that the parser can rely on what it works by: they
consume what comes next, attach what is loose, open nodes that are there, and put nothing in the
place of an attribute or a method of a parser. A world in which everything is in order stays so,
whatever else is done.
-/

namespace Rulebook

open Run

/-! ## The law -/

namespace Law

/-- What two laws both permit. -/
def and (law other : Law) : Law where
  call callable args world := law.call callable args world && other.call callable args world
  own callable args world := law.own callable args world && other.own callable args world
  action action := law.action action && other.action action

theorem and_within_left (law other : Law) : (law.and other).Within law where
  call _ _ _ hcall := (Bool.and_eq_true_iff.mp hcall).1
  own _ _ _ hown := (Bool.and_eq_true_iff.mp hown).1
  action _ haction := (Bool.and_eq_true_iff.mp haction).1

theorem and_within_right (law other : Law) : (law.and other).Within other where
  call _ _ _ hcall := (Bool.and_eq_true_iff.mp hcall).2
  own _ _ _ hown := (Bool.and_eq_true_iff.mp hown).2
  action _ haction := (Bool.and_eq_true_iff.mp haction).2

end Law

/-- The attributes and the methods that a parse works by. -/
def workingNames : List String :=
  readingFields ++ ["rules", "ast", "stack", "parse", "reset", "_step", "apply", "get", "prev",
    "location", "_advance_text", "add_node"]

/-- Whether arguments name one value, and that one is a node that is there or could not be opened:
it has no attribute that says where it stands. -/
def World.opensNode (world : World) (args : Args) : Bool :=
  match args.bind? ParserMethod.push.params with
  | some [.node child] => child < world.forest.size
  | some [value] =>
    match ((attributeOf value "parent").outcome world).1 with
    | .ok _ => false
    | .error _ => true
  | _ => true

/-- What is opened is a node that is there, and nothing is put in the place of what parsers work
by. -/
def undisturbed : Law where
  call callable args world :=
    match callable with
    | .method _ (.host _) "push" => world.opensNode args
    | .method _ (.host _) "define" => args.sparesNames workingNames
    | _ => true
  own _ _ _ := true
  action
    | .write _ name _ => name ∉ workingNames
    | _ => true

/-- Under this law parsers stay in order. -/
def orderly : Law := (honestReading.and looseAttaching).and undisturbed

theorem orderly_honest : orderly.Within honestReading :=
  (Law.and_within_left _ _).trans (Law.and_within_left _ _)

theorem orderly_loose : orderly.Within looseAttaching :=
  (Law.and_within_left _ _).trans (Law.and_within_right _ _)

theorem undisturbed_guards : undisturbed.Guards workingNames where
  define hcall := hcall
  write haction := of_decide_eq_true haction

theorem orderly_guards : orderly.Guards workingNames :=
  (Law.and_within_right _ _).guards undisturbed_guards

/-! ## Worlds in order -/

/-- The open nodes of every host are nodes that are there, in a list of open nodes. -/
def World.OpensPresent (world : World) : Prop :=
  ∀ (id : HostId) (value : Value), (world.host id).stack = some value →
    ∃ number, value = .list (.stack number) ∧ number < world.openStacks.size ∧
      ∀ item ∈ world.items (.stack number), ∃ node < world.forest.size, item = .node node

/-- Parsers know where they are, nodes keep their own children, open nodes are nodes, and nothing
stands before what parsers work by. -/
structure World.Orderly (world : World) : Prop where
  truthful : world.Truthful
  shaped : world.Shaped
  opens : world.OpensPresent
  hosts : world.Unreplaced workingNames
  nodes : world.NodesUnreplaced workingNames

theorem World.Unreplaced.of_mem {names : List String} {world : World} {name : String}
    (hfree : world.Unreplaced names) (hname : name ∈ names) : world.Unreplaced [name] := by
  intro id other hother
  rw [List.mem_singleton.mp hother]
  exact hfree id name hname

theorem World.OpensPresent.opensNodes {world : World} (hopens : world.OpensPresent) (id : HostId) :
    world.OpensNodes id := by
  intro value hstack
  obtain ⟨number, rfl, _, hnodes⟩ := hopens id value hstack
  refine ⟨_, rfl, fun item hitem => ?_⟩
  obtain ⟨node, _, rfl⟩ := hnodes item hitem
  exact ⟨node, rfl⟩

theorem orderly_start : World.start.Orderly where
  truthful := truthful_start
  shaped := linked_start.1.1
  opens _ _ hstack := by cases hstack
  hosts := unreplaced_start
  nodes _ _ _ := rfl

section Moves

variable {law : Law} {inv : World → Prop} {world after : World}

/-- A host works by the same attributes as another. -/
structure Host.WorksAs (host other : Host) : Prop where
  hostClass : host.hostClass = other.hostClass
  input : host.input = other.input
  rules : host.rules = other.rules
  root : host.root = other.root
  stack : host.stack = other.stack

/-- Writing an attribute that parsers do not work by changes none of those. -/
theorem Host.worksAs_setAttribute (host : Host) (content : Value) {name : String}
    (hname : name ∉ workingNames) : (host.setAttribute name content).WorksAs host where
  hostClass := by unfold Host.setAttribute; split <;> rfl
  input := by rw [Host.input_setAttribute, if_neg (by rintro rfl; exact hname (by decide))]
  rules := by rw [Host.rules_setAttribute, if_neg (by rintro rfl; exact hname (by decide))]
  root := by rw [Host.root_setAttribute, if_neg (by rintro rfl; exact hname (by decide))]
  stack := by rw [Host.stack_setAttribute, if_neg (by rintro rfl; exact hname (by decide))]

/-- What a lawful change makes of a host works by the same attributes, unless it is a new host. -/
theorem Law.HostChange.works {id : HostId} {host : Host} (hwithin : law.Within orderly)
    (hchange : law.HostChange world id host) :
    host.WorksAs (world.host id) ∨ id = world.hosts.size ∧ host.stack = none := by
  have hguards := hwithin.guards orderly_guards
  cases hchange with
  | same | records | setNested | advance => exact .inl ⟨rfl, rfl, rfl, rfl, rfl⟩
  | made _ _ _ _ _ _ _ hnew => exact .inr ⟨hnew, rfl⟩
  | mark content hname =>
      exact .inl (Host.worksAs_setAttribute _ content (by rcases hname with rfl | rfl <;> decide))
  | define hcall hargs =>
      have hspared := hguards.define hcall
      simp only [Args.sparesNames, ParserMethod.params, hargs, decide_eq_true_eq] at hspared
      exact .inl (Host.worksAs_setAttribute _ _ hspared)
  | write content haction =>
      exact .inl (Host.worksAs_setAttribute _ content (hguards.write haction))

theorem Law.HostChange.stack_eq {id : HostId} {host : Host} (hwithin : law.Within orderly)
    (hchange : law.HostChange world id host) : host.stack = (world.host id).stack := by
  rcases hchange.works hwithin with hworks | ⟨rfl, hnone⟩
  · exact hworks.stack
  · rw [hnone, World.host_size]
    rfl

/-- Nodes do not go away. -/
theorem Law.LinkMove.size_le (hlinks : law.LinkMove world after) :
    world.forest.size ≤ after.forest.size := by
  cases hlinks with
  | same htrees =>
      cases htrees with
      | same hsize => exact Nat.le_of_eq hsize.symm
      | grow label val position hforest =>
          rw [hforest, Forest.size_add]
          exact Nat.le_succ _
  | attach _ _ hafter => exact Nat.le_of_eq (hafter ▸ (size_attach _ _ _).symm)

theorem World.OpensPresent.congr (hopens : world.OpensPresent)
    (hstack : ∀ id, (after.host id).stack = (world.host id).stack)
    (hstacks : after.openStacks.size = world.openStacks.size)
    (hforest : world.forest.size ≤ after.forest.size)
    (hitems : ∀ number, ∀ item ∈ after.items (.stack number), item ∈ world.items (.stack number) ∨
      ∃ node < after.forest.size, item = .node node) : after.OpensPresent := by
  intro id value hvalue
  rw [hstack] at hvalue
  obtain ⟨number, rfl, hnumber, hnodes⟩ := hopens id value hvalue
  refine ⟨number, rfl, hstacks.symm ▸ hnumber, fun item hitem => ?_⟩
  rcases hitems number item hitem with hold | hnew
  · obtain ⟨node, hnode, rfl⟩ := hnodes item hold
    exact ⟨node, Nat.lt_of_lt_of_le hnode hforest, rfl⟩
  · exact hnew

/-- A parser that begins to read opens its new root. -/
theorem World.OpensPresent.restart (hopens : world.OpensPresent) (id : HostId) (input : Value) :
    (world.restart id input).OpensPresent := by
  have hforest : (world.restart id input).forest.size = world.forest.size + 1 :=
    Forest.size_add _ _
  intro other value hvalue
  rw [World.host_restart_of] at hvalue
  simp only [World.items_restart, World.size_openStacks_restart, hforest]
  split at hvalue
  next =>
    cases hvalue
    refine ⟨_, rfl, Nat.lt_succ_self _, fun item hitem => ?_⟩
    rw [if_pos rfl] at hitem
    exact ⟨_, Nat.lt_succ_self _, by simpa using hitem⟩
  next =>
    obtain ⟨number, rfl, hnumber, hnodes⟩ := hopens other value hvalue
    refine ⟨number, rfl, Nat.lt_succ_of_lt hnumber, fun item hitem => ?_⟩
    rw [if_neg (Nat.ne_of_lt hnumber)] at hitem
    obtain ⟨node, hnode, rfl⟩ := hnodes item hitem
    exact ⟨node, Nat.lt_succ_of_lt hnode, rfl⟩

/-- What is opened, and could be attached before, is a node that is there. -/
theorem opensNode_attached {before : World} {kernel : Kernel} {value : Value} {id : HostId}
    {args : Args} (hopened : before.opensNode args = true)
    (hargs : args.bind? ParserMethod.push.params = some [value])
    (hattached : (Parser.attachLoose kernel id value).outcome before = (.ok (), world)) :
    ∃ node < before.forest.size, value = .node node := by
  simp only [World.opensNode, hargs] at hopened
  split at hopened
  next node heq =>
    cases heq
    exact ⟨node, of_decide_eq_true hopened, rfl⟩
  next heq =>
    -- a value that has no parent to ask for is not opened
    cases heq
    rw [Parser.attachLoose] at hattached
    obtain ⟨parent, middle, hparent, _⟩ := bind_ok hattached
    rw [hparent] at hopened
    cases hopened
  next hother => exact absurd rfl (hother value)

/-- What is lawfully opened is there when it is opened. -/
theorem opened_present {before : World} {caller value : Value} {rounds depth serial : Nat}
    {id : HostId} {args : Args} (hwithin : law.Within orderly)
    (hcall : law.call (.method serial (.host id) "push") args before = true)
    (hargs : args.bind? ParserMethod.push.params = some [value]) (hbefore : before.Orderly)
    (hattached : (Parser.attachLoose (law.kernel caller rounds depth) id value).outcome before =
      (.ok (), world)) : ∃ node < world.forest.size, value = .node node := by
  obtain ⟨node, hnode, rfl⟩ := opensNode_attached
    ((hwithin.trans (Law.and_within_right _ _)).call _ _ _ hcall) hargs hattached
  refine ⟨node, ?_, rfl⟩
  rcases attachLoose_ok (hwithin.trans orderly_loose) hbefore.shaped
    (hbefore.hosts.of_mem (by decide)) (by decide) hbefore.nodes (hbefore.opens.opensNodes id)
    hattached with ⟨_, rfl⟩ | ⟨_, _, parent, _, _, _, _, _, rfl⟩
  · exact hnode
  · exact Nat.lt_of_lt_of_eq hnode (size_attach before node parent).symm

theorem Law.Move.opens (hwithin : law.Within orderly) (hmove : law.Move World.Orderly world after)
    (horderly : world.Orderly) : after.OpensPresent := by
  have hloose := hwithin.trans orderly_loose
  have hgrown := (hmove.links hloose horderly.shaped).size_le
  have hshaped := horderly.shaped
  have hopens := horderly.opens
  cases hmove.shaped hloose hshaped with
  | change hchange =>
      refine hopens.congr (fun id => (hchange.host id).stack_eq hwithin) ?_ hgrown
        fun number item hitem => .inl ?_
      · rw [hchange.openStacks]
      · rwa [World.items, hchange.openStacks] at hitem
  | restart id input => exact hopens.restart id input
  | openNode hcall hargs hbefore hattached =>
      obtain ⟨node, hnode, rfl⟩ := opened_present hwithin hcall hargs hbefore hattached
      refine hopens.congr (fun _ => rfl) Array.size_modify hgrown fun other item hitem => ?_
      exact (world.mem_push_items hitem).imp_right fun hpushed => ⟨node, hnode, hpushed.2⟩
  | closeNode =>
      exact hopens.congr (fun _ => rfl) Array.size_modify hgrown fun other item hitem =>
        .inl (world.mem_pop_items hitem)
  | attach => exact hopens.congr (fun _ => rfl) rfl hgrown fun _ _ hitem => .inl hitem

theorem orderly_preserved (hwithin : law.Within orderly) : law.Preserves World.Orderly := by
  intro world after hmove horderly
  have hguards := hwithin.guards orderly_guards
  exact
    { truthful := truthful_preserved (hwithin.trans orderly_honest) world after
        (hmove.mono fun _ => World.Orderly.truthful) horderly.truthful
      shaped := shaped_preserved (hwithin.trans orderly_loose) world after
        (hmove.mono fun _ => World.Orderly.shaped) horderly.shaped
      opens := hmove.opens hwithin horderly
      hosts := unreplaced_preserved hguards (by decide) world after
        (hmove.mono fun _ => World.Orderly.hosts) horderly.hosts
      nodes := nodesUnreplaced_preserved hguards (by decide) world after
        (hmove.mono fun _ => World.Orderly.nodes) horderly.nodes }

end Moves

theorem orderly_clears {law : Law} {before after : World} {callable : Value} {args : Args}
    (hwithin : law.Within orderly) (hown : law.OwnCall before callable args after)
    (hbefore : before.Orderly) (hasked : orderly.own callable args after = true) :
    orderly.call callable args after = true := by
  have hhonest := honestReading_clears (hwithin.trans orderly_honest) hown
    (hbefore.hosts.of_mem (by decide))
  have hloose := looseAttaching_clears hown (hbefore.hosts.of_mem (by decide))
    (orderly_loose.own _ _ _ hasked)
  refine Bool.and_eq_true_iff.mpr ⟨Bool.and_eq_true_iff.mpr ⟨hhonest, hloose⟩, ?_⟩
  cases hown <;> rfl

theorem orderly_upholds : orderly.Upholds World.Orderly :=
  ⟨orderly_preserved (.refl _), orderly_clears (.refl _)⟩

end Rulebook
