import Rulebook.Proofs.QuietParts
import Rulebook.Proofs.ParseLoop

/-!
# Laws for runs

A law says which calls may be made, and in which worlds, and which actions the scripts that are
called may hold. Under a law a run goes as it goes anyway as long as the law is kept, and is cut off
at the first call that breaks it. What a run can do to the world while it keeps a law is a list of
moves, so that a condition that survives every move holds throughout the run.

A parser makes some calls by itself, to consume what it matched and to attach a node that it found
loose. A law is not there to see to those: that they are lawful has to follow from what the parser
did before, and of the run no more is asked than the law says of them apart.
-/

namespace Rulebook

open Run

/-- Whether a run was cut off. -/
def Run.wasCutOff {α : Type} : Except Fault α → Bool
  | .error .outOfFuel => true
  | _ => false

/-- What a run may do. -/
structure Law where
  /-- Whether a value may be called with arguments in a world. -/
  call : Value → Args → World → Bool
  /-- What is asked of a call that a parser makes by itself. -/
  own : Value → Args → World → Bool
  /-- Whether a script may hold an action. -/
  action : Action → Bool

/-- Whether a value is a method of a host with one of the given names. -/
def Value.isHostMethod (names : List String) : Value → Bool
  | .method _ (.host _) name => name ∈ names
  | _ => false

/-- Whether a caller makes a call by itself: `match` when it consumes what it found, `push` and
`apply` when they attach what they found loose. -/
def isOwnCall (caller : Value) : Callee → Value → Bool
  | .method _ "_advance_text", .method _ (.host _) "_advance_text" => caller.isHostMethod ["match"]
  | .method _ "add_node", .method _ (.node _) "add_node" => caller.isHostMethod ["push", "apply"]
  | _, _ => false

theorem isOwnCall_cases {caller callable : Value} {callee : Callee}
    (hown : isOwnCall caller callee callable = true) :
    (∃ receiver number other, callee = .method receiver "_advance_text" ∧
      callable = .method number (.host other) "_advance_text" ∧
      caller.isHostMethod ["match"] = true) ∨
    (∃ receiver number other, callee = .method receiver "add_node" ∧
      callable = .method number (.node other) "add_node" ∧
      caller.isHostMethod ["push", "apply"] = true) := by
  unfold isOwnCall at hown
  split at hown
  next => exact .inl ⟨_, _, _, rfl, rfl, hown⟩
  next => exact .inr ⟨_, _, _, rfl, rfl, hown⟩
  next => cases hown

theorem isOwnCall_advance {caller receiver callable : Value}
    (hown : isOwnCall caller (.method receiver "_advance_text") callable = true) :
    ∃ number other, callable = .method number (.host other) "_advance_text" := by
  obtain ⟨_, number, other, _, hcallable, _⟩ | ⟨_, _, _, hcallee, _⟩ := isOwnCall_cases hown
  · exact ⟨number, other, hcallable⟩
  · simp at hcallee

theorem isOwnCall_addNode {caller receiver callable : Value}
    (hown : isOwnCall caller (.method receiver "add_node") callable = true) :
    ∃ number other, callable = .method number (.node other) "add_node" := by
  obtain ⟨_, _, _, hcallee, _⟩ | ⟨_, number, other, _, hcallable, _⟩ := isOwnCall_cases hown
  · simp at hcallee
  · exact ⟨number, other, hcallable⟩

/-- Whether no call of a caller is one that a parser makes by itself. -/
def Value.IsScript (caller : Value) : Prop :=
  ∀ callee callable, isOwnCall caller callee callable = false

/-- Only the methods of hosts make calls by themselves. -/
theorem Value.IsScript.of_not_isHostMethod {caller : Value}
    (hcaller : ∀ names, caller.isHostMethod names = false) : caller.IsScript := by
  intro callee callable
  refine Bool.eq_false_iff.mpr fun hown => ?_
  obtain ⟨_, _, _, _, _, hmethod⟩ | ⟨_, _, _, _, _, hmethod⟩ := isOwnCall_cases hown
  all_goals simp [hcaller] at hmethod

theorem isScript_null : Value.null.IsScript := .of_not_isHostMethod fun _ => rfl

theorem isScript_callback (number : Nat) (name : String) (body : List Stmt) :
    (Value.callback number name body).IsScript := .of_not_isHostMethod fun _ => rfl

namespace Law

mutual

/-- Whether a statement holds only lawful actions. Callbacks it makes are looked at when they are
called. -/
def allows (law : Law) : Stmt → Bool
  | .branch _ yes no => law.allowsAll yes && law.allowsAll no
  | .loop body => law.allowsAll body
  | .attempt body _ handler => law.allowsAll body && law.allowsAll handler
  | .act action _ => law.action action
  | .give _ | .leave | .trace _ | .raise _ _ => true

/-- Whether statements hold only lawful actions. -/
def allowsAll (law : Law) : List Stmt → Bool
  | [] => true
  | statement :: rest => law.allows statement && law.allowsAll rest

end

/-- What is asked of a call. -/
def asks (law : Law) (caller : Value) (callee : Callee) (callable : Value) (args : Args)
    (world : World) : Bool :=
  if isOwnCall caller callee callable then law.own callable args world
  else law.call callable args world

/-- Whether a value that is called runs lawful actions alone. -/
def allowsBody (law : Law) : Value → Bool
  | .callback _ _ body => law.allowsAll body
  | _ => true

/-- The value that a callee calls. -/
def resolve : Callee → Run Value
  | .value callable => return callable
  | .method receiver name => attributeOf receiver name

/-- Makes a call with a given depth of calls left if it is lawful, and cuts the run off if not. -/
def invokeAt (law : Law) (rounds : Nat) : Nat → Value → Callee → Args → Run Value
  | 0, _, _, _ => fail .tooDeep
  | depth + 1, caller, callee, args => do
    let callable ← resolve callee
    if law.asks caller callee callable args (← get) && law.allowsBody callable then
      callValue ⟨rounds, law.invokeAt rounds depth callable⟩ callable args
    else fail .outOfFuel

/-- The kernel by which a caller makes lawful calls. -/
def kernel (law : Law) (caller : Value) (rounds depth : Nat) : Kernel :=
  ⟨rounds, law.invokeAt rounds depth caller⟩

/-- Statements keep a law from an empty world on: they hold lawful actions alone, and none of the
calls they lead to breaks it. -/
def Keeps (law : Law) (rounds depth : Nat) (body : List Stmt) : Prop :=
  law.allowsAll body = true ∧
    wasCutOff ((Script.runAll (law.kernel .null rounds depth) body).outcome .start).1 = false

instance (law : Law) (rounds depth : Nat) (body : List Stmt) :
    Decidable (law.Keeps rounds depth body) :=
  inferInstanceAs (Decidable (_ ∧ _))

open Classical in
/-- The law that permits every call made while a condition holds. -/
noncomputable def watch (condition : World → Prop) : Law :=
  ⟨fun _ _ world => decide (condition world), fun _ _ world => decide (condition world),
    fun _ => true⟩

end Law

/-- A condition holds at every call that statements lead to from an empty world on, and at the end:
watching it at every call makes no difference to the run. -/
def Throughout (condition : World → Prop) (rounds depth : Nat) (body : List Stmt) : Prop :=
  let ending := (Script.runAll (Kernel.ofDepth rounds depth) body).outcome .start
  condition ending.2 ∧
    (Script.runAll ((Law.watch condition).kernel .null rounds depth) body).outcome .start = ending

namespace Law

/-! ## Moves -/

/-- What can be made of a host before it reads its first input. -/
def blankHost (hostClass : HostClass) (options rules patterns : Option Value)
    (ownOptions : Record) : Host :=
  { Host.bare hostClass with options, ownOptions, rules, patterns }

/-- A change of the world that a law permits and that opens, closes and attaches no node. -/
inductive Change (law : Law) (world : World) : World → Prop
  /-- No node, host or list of open nodes changes. -/
  | quiet {after : World} (hquiet : world.Quiet after) : Change law world after
  | newNode (label val position : Value) :
      Change law world (world.addNode (.fresh world.forest.size label val position))
  /-- A script makes a node and says what its children, its parent or its notes are. -/
  | newNodeWithin (label val position children parent notes : Value)
      {function : String} {terms : List Term} {named : List (String × Term)}
      (haction : law.action (.call function terms named) = true)
      (hfunction : Function.table.lookup function = some .newNode)
      (hmore : 3 < terms.length ∨ named ≠ []) :
      Change law world (world.addNode
        { NodeCell.fresh world.forest.size label val position with children, parent, notes })
  | newHost (hostClass : HostClass) (options rules patterns : Option Value) (ownOptions : Record)
      (hrules : ∀ value ∈ rules, value = .record (.rules world.hosts.size))
      (hpatterns : ∀ value ∈ patterns, value = .record (.patterns world.hosts.size)) :
      Change law world (world.addHost (blankHost hostClass options rules patterns ownOptions))
  /-- A facade gets the parser that it owns. -/
  | setNested (id nested : HostId) :
      Change law world
        (world.changeHost id fun host => { host with nested := some (.host nested) })
  /-- A parser consumes a text. -/
  | advance {serial : Nat} {id : HostId} {args : Args} {consumed : String} {cursor : Cursor}
      (hcall : law.call (.method serial (.host id) "_advance_text") args world = true)
      (hargs : args.bind? ParserMethod.advance.params = some [.text consumed])
      (hcursor : (world.host id).cursor = some cursor) :
      Change law world (world.setCursor id (cursor.advance consumed.toList))
  /-- A record is written under the key of the name that is given for it. -/
  | writeRecord (ref : RecordRef) {key : Key} {name : Value} (content : Value)
      (hkey : name.key? = some key) :
      Change law world (world.changeRecord ref fun record => record.write key name content)
  /-- A script takes out a rule. -/
  | eraseEntry (ref : RecordRef) (key : Key) {object : String} {label : Datum}
      (haction : law.action (.drop object label) = true) :
      Change law world (world.changeRecord ref fun record => record.erase key)
  /-- A value gets a position. -/
  | stamp (value position : Value) :
      Change law world ((setAttribute value "position" position).outcome world).2
  /-- A host gets a member. -/
  | define {serial bound : Nat} {id : HostId} {args : Args} {name : String} {callable : Value}
      {before : World}
      (hcall : law.call (.method serial (.host id) "define") args before = true)
      (hargs : args.bind? [.needed "name", .needed "fn"] = some [.text name, callable]) :
      Change law world ((setAttribute (.host id) name (.bound bound id callable)).outcome world).2
  /-- A script writes an attribute. -/
  | write (value content : Value) {object name : String} {term : Term}
      (haction : law.action (.write object name term) = true) :
      Change law world ((setAttribute value name content).outcome world).2

/-- One step of a run that keeps a law and, so far, a condition. -/
inductive Move (law : Law) (inv : World → Prop) (world : World) : World → Prop
  | change {after : World} (hchange : law.Change world after) : Move law inv world after
  /-- A parser begins to read: it was just made, or it was told to. -/
  | restart (id : HostId) (input : Value)
      (hcause : (world.host id).root = none ∨
        ∃ serial args, law.call (.method serial (.host id) "reset") args world = true) :
      Move law inv world (world.restart id input)
  /-- An item is replaced in a list that stands where the notes of a node or the rules of a parser
  are. -/
  | setListItem {ref : ListRef} (place : Nat) (content : Value)
      (hheld : (∃ id, (world.cell id).notes = .list ref) ∨
        ∃ id, (world.host id).rules = some (.list ref)) :
      Move law inv world (world.changeItems ref fun values => values.setIfInBounds place content)
  /-- A node is opened, after it was attached if it had no parent. -/
  | openNode {caller : Value} {rounds depth serial : Nat} {id : HostId} {args : Args}
      {ref : ListRef} {node : Value} {before : World}
      (hcall : law.call (.method serial (.host id) "push") args before = true)
      (hargs : args.bind? ParserMethod.push.params = some [node]) (hbefore : inv before)
      (hattached : (Parser.attachLoose (law.kernel caller rounds depth) id node).outcome before =
        (.ok (), world))
      (hstack : (world.host id).stack = some (.list ref)) :
      Move law inv world (world.changeItems ref fun values => values.push node)
  /-- The innermost open node is closed. -/
  | closeNode {id : HostId} {ref : ListRef} (hstack : (world.host id).stack = some (.list ref))
      (hsize : 2 ≤ (world.items ref).size) :
      Move law inv world (world.changeItems ref Array.pop)
  /-- A node is told its parent, which keeps its children in no list. -/
  | setParent {serial : Nat} {node : NodeId} {args : Args} {child : Value} {after : World}
      (hcall : law.call (.method serial (.node node) "add_node") args world = true)
      (hargs : args.bind? [.needed "node"] = some [child])
      (hparent : (setAttribute child "parent" (.node node)).outcome world = (.ok (), after))
      (hchildren : ∀ ref, (after.cell node).children ≠ .list ref) :
      Move law inv world after
  /-- A node is told its parent, and the parent gets it as its last child. -/
  | attach {serial : Nat} {node : NodeId} {args : Args} {child : Value} {ref : ListRef}
      {middle : World}
      (hcall : law.call (.method serial (.node node) "add_node") args world = true)
      (hargs : args.bind? [.needed "node"] = some [child])
      (hparent : (setAttribute child "parent" (.node node)).outcome world = (.ok (), middle))
      (hchildren : (middle.cell node).children = .list ref) :
      Move law inv world (middle.changeItems ref fun values => values.push child)

/-- The calls that a parser makes by itself, with the world in which it began to see to them. -/
inductive OwnCall (law : Law) (before : World) : Value → Args → World → Prop
  /-- What a pattern found is consumed. -/
  | consume {serial number : Nat} {id other : HostId} {args : Args} {source : Value}
      {pattern : Pattern} {left : List Char} {found : Pattern.Match} {compiled looked after : World}
      (hcall : law.call (.method serial (.host id) "match") args before = true)
      (hargs : args.bind? ParserMethod.match.params = some [source])
      (hpattern : (compilePattern source (.text "")).outcome before = (.ok pattern, compiled))
      (hleft : (Parser.charsLeft id pattern.binary).outcome compiled = (.ok left, looked))
      (hfound : pattern.match? left = some found)
      (hresolve : (resolve (.method (.host id) "_advance_text")).outcome
        (looked.withSerial (looked.serial + 1)) =
          (.ok (.method number (.host other) "_advance_text"), after)) :
      OwnCall law before (.method number (.host other) "_advance_text")
        (.of [pattern.valueOf found.text]) after
  /-- A loose node is attached below what `prev` gives. -/
  | attach {caller : Value} {rounds depth number : Nat} {id : HostId} {child parent : Value}
      {node : NodeId} {looked middle after : World}
      (hloose : (attributeOf child "parent").outcome before = (.ok .null, looked))
      (hprev : ((law.kernel caller rounds depth).sendHost id "prev" []).outcome looked =
        (.ok parent, middle))
      (hresolve : (resolve (.method parent "add_node")).outcome middle =
        (.ok (.method number (.node node) "add_node"), after)) :
      OwnCall law before (.method number (.node node) "add_node") (.of [child]) after

/-- A law permits no more than another. -/
structure Within (law outer : Law) : Prop where
  call : ∀ callable args world, law.call callable args world = true →
    outer.call callable args world = true
  own : ∀ callable args world, law.own callable args world = true →
    outer.own callable args world = true
  action : ∀ action, law.action action = true → outer.action action = true

theorem Within.refl (law : Law) : law.Within law := ⟨fun _ _ _ => id, fun _ _ _ => id, fun _ => id⟩

theorem Within.trans {law middle outer : Law} (hwithin : law.Within middle)
    (hmiddle : middle.Within outer) : law.Within outer where
  call callable args world hcall := hmiddle.call _ _ _ (hwithin.call callable args world hcall)
  own callable args world hown := hmiddle.own _ _ _ (hwithin.own callable args world hown)
  action action haction := hmiddle.action _ (hwithin.action action haction)

theorem Within.asks {law outer : Law} (hwithin : law.Within outer) {caller callable : Value}
    {callee : Callee} {args : Args} {world : World}
    (hasks : law.asks caller callee callable args world = true) :
    outer.asks caller callee callable args world = true := by
  unfold Law.asks at hasks ⊢
  split
  next hown => exact hwithin.own _ _ _ (by rwa [if_pos hown] at hasks)
  next hown => exact hwithin.call _ _ _ (by rwa [if_neg hown] at hasks)

/-- A condition survives whatever the law permits. -/
def Preserves (law : Law) (inv : World → Prop) : Prop :=
  ∀ world after, law.Move inv world after → inv world → inv after

/-- A condition upholds a law: it survives whatever the law permits, and while it holds the calls
that parsers make by themselves are lawful. -/
structure Upholds (law : Law) (inv : World → Prop) : Prop where
  preserves : law.Preserves inv
  clears : ∀ {before : World} {callable : Value} {args : Args} {after : World},
    law.OwnCall before callable args after → inv before →
      law.own callable args after = true → law.call callable args after = true

section Moves

variable {law : Law} {inv other : World → Prop} {world after : World}

theorem Move.mono (hmove : law.Move inv world after) (hinv : ∀ world, inv world → other world) :
    law.Move other world after := by
  cases hmove with
  | change hchange => exact .change hchange
  | restart id input hcause => exact .restart id input hcause
  | setListItem place content hheld => exact .setListItem place content hheld
  | openNode hcall hargs hbefore hattached hstack =>
      exact .openNode hcall hargs (hinv _ hbefore) hattached hstack
  | closeNode hstack hsize => exact .closeNode hstack hsize
  | setParent hcall hargs hparent hchildren => exact .setParent hcall hargs hparent hchildren
  | attach hcall hargs hparent hchildren => exact .attach hcall hargs hparent hchildren

/-- A condition that survives may be relied on when another one is shown to survive. -/
theorem Preserves.and (hinv : law.Preserves inv)
    (hother : ∀ world after, law.Move (fun world => inv world ∧ other world) world after →
      inv world → inv after → other world → other after) :
    law.Preserves fun world => inv world ∧ other world := by
  rintro world after hmove ⟨hworld, hholds⟩
  have hafter := hinv world after (hmove.mono fun _ => And.left) hworld
  exact ⟨hafter, hother world after hmove hworld hafter hholds⟩

theorem Preserves.both (hinv : law.Preserves inv) (hother : law.Preserves other) :
    law.Preserves fun world => inv world ∧ other world :=
  hinv.and fun world after hmove _ _ => hother world after (hmove.mono fun _ => And.right)

end Moves

end Law

end Rulebook
