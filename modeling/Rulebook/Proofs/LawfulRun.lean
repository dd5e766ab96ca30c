import Rulebook.Proofs.Oversight

/-!
# Runs that keep a law

Nodes, functions and statements go along with a law as the methods of hosts do, so a script that
keeps a law makes no other changes than lawful moves. What survives those holds throughout the run,
at every call that is made on the way.
-/

namespace Rulebook

open Run

theorem setAttribute_error {world after : World} {value content : Value} {name : String}
    {fault : Fault}
    (houtcome : (setAttribute value name content).outcome world = (.error fault, after)) :
    after = world := by
  cases value with
  | node id =>
      simp only [setAttribute] at houtcome
      split at houtcome
      next => cases houtcome; rfl
      next => cases houtcome
  | host id =>
      simp only [setAttribute, outcome_bind_ok (outcome_host id world)] at houtcome
      split at houtcome
      next => cases houtcome; rfl
      next => cases houtcome
  | kind | callback | patternRule | stamp | plugin | captureRule | forward => cases houtcome
  | _ => cases houtcome; rfl

/-- A new node that is given no more than its label, its text and its position is attached to
nothing. -/
theorem nodeParams_few {args : Args} {id : NodeId}
    {label val position children parent notes : Value}
    (hargs : args.bind? (Function.nodeParams id) =
      some [label, val, position, children, parent, notes])
    (hnamed : args.named = []) (hfew : args.positional.length ≤ 3) :
    .list (.children id) = children ∧ .null = parent ∧ .record (.notes id) = notes := by
  obtain ⟨positional, named⟩ := args
  subst hnamed
  match positional with
  | [] => simp [Args.bind?, Function.nodeParams, Args.bindNamed, Param.needed] at hargs
  | [_] | [_, _] | [_, _, _] =>
      simp [Args.bind?, Function.nodeParams, Args.bindNamed, Param.optional] at hargs
      exact hargs.2.2.2
  | _ :: _ :: _ :: _ :: _ =>
      simp only [List.length_cons] at hfew
      omega

theorem evaluateAll_length {terms : List Term} {values : List Value} {world after : World}
    (houtcome : (Script.evaluateAll terms).outcome world = (.ok values, after)) :
    values.length = terms.length := by
  induction terms generalizing values world with
  | nil =>
      cases houtcome
      rfl
  | cons term rest ih =>
      rw [Script.evaluateAll] at houtcome
      obtain ⟨value, middle, _, hrest⟩ := bind_ok houtcome
      obtain ⟨others, last, hothers, hvalues⟩ := bind_ok hrest
      cases hvalues
      rw [List.length_cons, List.length_cons, ih hothers]

namespace Law.Oversees

variable {law : Law} {inv : World → Prop} {caller : Value} {free watched : Kernel}
  (hover : law.Oversees inv caller free watched)

include hover

/-! ## Nodes and functions -/

theorem addChild {world : World} {serial : Nat} {node : NodeId} {args : Args} {child : Value}
    (hcall : law.call (.method serial (.node node) "add_node") args world = true)
    (hargs : args.bind? [.needed "node"] = some [child]) :
    TracksAt inv
      (do
        setAttribute child "parent" (.node node)
        Run.append free (← cell node).children child
        return child)
      (do
        setAttribute child "parent" (.node node)
        Run.append watched (← cell node).children child
        return child) world := by
  intro hinv
  -- no move is made before the child stands in the list, so both changes are looked at together
  rcases hparent : (setAttribute child "parent" (.node node)).outcome world with
    ⟨fault | ⟨⟩, middle⟩
  · rw [outcome_bind, outcome_bind, hparent, setAttribute_error hparent]
    exact ⟨hinv, Or.inr rfl⟩
  · rw [outcome_bind_ok hparent, outcome_bind_ok hparent, outcome_bind_ok (outcome_cell _ _),
      outcome_bind_ok (outcome_cell _ _)]
    by_cases hlist : ∃ ref, (middle.cell node).children = .list ref
    · obtain ⟨ref, hchildren⟩ := hlist
      rw [hchildren]
      exact ⟨hover.upholds.preserves _ _ (.attach hcall hargs hparent hchildren) hinv, Or.inr rfl⟩
    · have hchildren : ∀ ref, (middle.cell node).children ≠ .list ref :=
        fun ref heq => hlist ⟨ref, heq⟩
      have happend : TracksAt inv (Run.append free (middle.cell node).children child)
          (Run.append watched (middle.cell node).children child) middle :=
        hover.append fun ref heq => absurd heq (hchildren ref)
      exact happend.bind (fun _ after _ => Tracks.pure child after)
        (hover.upholds.preserves _ _ (.setParent hcall hargs hparent hchildren) hinv)

theorem callNode {world : World} {serial : Nat} {id : NodeId} {name : String} {args : Args}
    (hcall : law.call (.method serial (.node id) name) args world = true) :
    TracksAt inv (Rulebook.callNode free id name args) (Rulebook.callNode watched id name args)
      world := by
  unfold Rulebook.callNode
  split
  next =>
    refine hover.look (quiet_bindArgs _ _) fun values after hvalues _ => ?_
    split
    next key value =>
      refine hover.look (quiet_cell id) fun cell after hcell _ => ?_
      cases hcell
      refine TracksAt.bind (hover.setItem ?_) fun _ after _ => Tracks.pure _ after
      exact fun ref hnotes => Or.inl ⟨id, hnotes⟩
    next => exact Tracks.fail _ _
  next =>
    refine hover.look (quiet_bindArgs _ _) fun values after hvalues _ => ?_
    obtain ⟨hbound, rfl⟩ := Args.bind_ok hvalues
    split
    next child => exact hover.addChild hcall hbound
    next => exact Tracks.fail _ _
  next => exact hover.quiet (quiet_lacks _ _) world

theorem newParser (hostClass : HostClass) (options : Value) :
    Tracks inv (Run.newParser hostClass options) (Run.newParser hostClass options) := by
  refine hover.after (quiet_copyOptions _) fun ownOptions world => ?_
  refine TracksAt.bind (hover.change ?_) fun id after hafter => ?_
  · exact .newHost hostClass _ _ _ ownOptions (by simp) (by simp)
  · cases hafter
    refine (hover.reset _ (Or.inl ?_)).bind fun _ after _ => Tracks.pure _ after
    rw [World.host_addHost, if_pos rfl]
    rfl

theorem newFacade (hostClass : HostClass) (options : Value) :
    Tracks inv (Run.newFacade hostClass options) (Run.newFacade hostClass options) := by
  refine hover.after (quiet_copyOptions _) fun ownOptions => ?_
  refine Tracks.bind (fun world => hover.change ?_) fun id =>
    (hover.newParser _ _).bind fun nested =>
      Tracks.bind (fun world => hover.change (.setNested id nested)) fun _ => .pure _
  exact .newHost hostClass _ none none ownOptions (by simp) (by simp)

theorem newOfClass (hostClass : HostClass) (options : Value) :
    Tracks inv (Run.newOfClass hostClass options) (Run.newOfClass hostClass options) := by
  unfold Run.newOfClass
  split
  next => exact hover.newParser _ _
  next => exact hover.newParser _ _
  next => exact hover.newParser _ _
  next => exact hover.newFacade _ _
  next => exact hover.newFacade _ _
  next => exact hover.newFacade _ _
  next =>
    exact fun world => hover.change (.newHost .thing none none none .empty (by simp) (by simp))

theorem runPatternRule (label pattern parser : Value) :
    Tracks inv (Rulebook.runPatternRule free label pattern parser)
      (Rulebook.runPatternRule watched label pattern parser) := by
  refine (hover.send _ (fun _ => rfl) _).bind fun stamp =>
    (hover.send _ (fun _ => rfl) _).bind fun found => ?_
  split
  next => exact .pure _
  next =>
    refine (hover.send _ (fun _ => rfl) _).bind fun text =>
      hover.after (quiet_isSet _) fun isSet => ?_
    split
    next =>
      exact (hover.send _ (fun _ => rfl) _).bind fun _ =>
        (hover.send _ (fun _ => rfl) _).bind fun _ =>
          (hover.send _ (fun _ => rfl) _).bind fun _ => .pure _
    next => exact .pure _

theorem captureCallable (parser : Value) (label : String) (matcher flags : Value) :
    Tracks inv (Rulebook.captureCallable free parser label matcher flags)
      (Rulebook.captureCallable watched parser label matcher flags) := by
  refine hover.after (quiet_isSet _) fun isSet => ?_
  split
  next => exact .fail_bind _
  next => exact hover.after (quiet_notify _) fun _ => hover.send _ (fun _ => rfl) _

/-- A list has no place under a name, so writing under one changes at most a record. -/
theorem setItemNamed (value content : Value) (name : String) :
    Tracks inv (Run.setItem value (.text name) content)
      (Run.setItem value (.text name) content) := by
  unfold Run.setItem
  split
  next ref => exact hover.after (quiet_items ref) fun items => .fail_bind _
  next ref =>
    exact fun world => hover.look (quiet_keyOf _) fun key _ hkey _ =>
      hover.change (.writeRecord ref content (keyOf_ok hkey).1)
  next => exact .fail _

theorem capturePattern (parser : Value) (label : String) (matcher flags : Value) :
    Tracks inv (Rulebook.capturePattern free parser label matcher flags)
      (Rulebook.capturePattern watched parser label matcher flags) := by
  unfold Rulebook.capturePattern
  dsimp only
  split
  next => exact hover.after quiet_get fun _ => .fail_bind _
  next =>
    refine hover.after (quiet_isSet _) fun isSet => ?_
    split
    next => exact .fail _
    next =>
      exact hover.after (quiet_compilePattern _ _) fun _ =>
        hover.after (quiet_attributeOf _ _) fun _ => (hover.setItemNamed _ _ _).bind fun _ =>
          hover.after (quiet_notify _) fun _ => hover.after (quiet_makePatternRule _ _) fun _ =>
            hover.send _ (fun _ => rfl) _

theorem capture (parser label matcher flags : Value) :
    Tracks inv (Rulebook.capture free parser label matcher flags)
      (Rulebook.capture watched parser label matcher flags) := by
  refine hover.after (quiet_isSet _) fun isSet => ?_
  split
  next =>
    split
    next => exact hover.captureCallable _ _ _ _
    next => exact hover.capturePattern _ _ _ _
  next => exact hover.after (quiet_spell _) fun _ => .fail _

theorem forwardCapture (args : Args) :
    Tracks inv (Rulebook.forwardCapture free args) (Rulebook.forwardCapture watched args) := by
  unfold Rulebook.forwardCapture
  split
  next => exact .fail _
  next =>
    exact hover.after (quiet_attributeOf _ _) fun _ => hover.invokeOther (fun _ => rfl) _

theorem install (host expected : Value) :
    Tracks inv (Rulebook.install free host expected) (Rulebook.install watched host expected) := by
  refine hover.after (quiet_resolveKind _ _) fun kind => ?_
  split
  next =>
    exact hover.after (quiet_attributeOf _ _) fun _ =>
      (hover.send _ (fun _ => rfl) _).bind fun _ => (hover.send _ (fun _ => rfl) _).bind fun _ =>
        hover.after (quiet_notify _) fun _ => .pure _
  next =>
    exact (hover.send _ (fun _ => rfl) _).bind fun _ =>
      hover.after (quiet_notify _) fun _ => .pure _

theorem functionNode {function : String} {terms : List Term}
    {named : List (String × Term)} {args : Args} {values : List Value} {world : World}
    (haction : law.action (.call function terms named) = true)
    (hfunction : Function.table.lookup function = some .newNode)
    (hterms : args.positional.length = terms.length) (hnamed : named = [] → args.named = [])
    (hargs : args.bind? (Function.nodeParams world.forest.size) = some values) :
    TracksAt inv (Function.newNode.apply free values) (Function.newNode.apply watched values)
      world := by
  unfold Function.apply
  split
  case h_3 label val position children parent notes _ =>
    refine hover.change ?_
    have hadded : ((do
        let id ← Run.newNode label val position
        Run.changeCell id fun cell => { cell with children, parent, notes }
        return .node id : Run Value).outcome world).2 = world.addNode
          { NodeCell.fresh world.forest.size label val position with
            children, parent, notes } := by
      rw [outcome_bind_ok (outcome_newNode _ _ _ _), outcome_bind_ok (outcome_changeCell _ _ _)]
      simp only [World.changeCell, World.addNode, Forest.modify_add, outcome_pure]
    rw [hadded]
    by_cases hmore : 3 < terms.length ∨ named ≠ []
    · exact .newNodeWithin _ _ _ _ _ _ haction hfunction hmore
    · rw [not_or, not_not, ← hterms] at hmore
      obtain ⟨rfl, rfl, rfl⟩ := nodeParams_few hargs (hnamed hmore.2) (Nat.le_of_not_lt hmore.1)
      exact .newNode _ _ _
  case h_21 => exact Tracks.fail _ _
  all_goals contradiction

theorem functionApply {function : Function} {values : List Value}
    (hfunction : function ≠ .newNode) :
    Tracks inv (function.apply free values) (function.apply watched values) := by
  unfold Function.apply
  split
  next => exact (hover.newOfClass _ _).bind fun _ => .pure _
  next => exact (hover.newOfClass _ _).bind fun _ => .pure _
  next => exact absurd rfl hfunction
  next => exact hover.after quiet_fresh fun _ => .pure _
  next => exact hover.after quiet_fresh fun _ => .pure _
  next => exact hover.after (quiet_compilePattern _ _) fun _ => .pure _
  next => exact hover.quiet (quiet_makePatternRule _ _)
  next => exact hover.capture _ _ _ _
  next => exact hover.after quiet_fresh fun _ => .pure _
  next => exact hover.after (Function.quiet_kindOrNull _) fun _ => hover.install _ _
  next =>
    exact hover.after (Function.quiet_kindOrNull _) fun _ =>
      hover.after (quiet_resolveKind _ _) fun _ => .pure _
  next =>
    exact hover.after (Function.quiet_kindOf _) fun _ => hover.after quiet_get fun _ => .pure _
  next =>
    exact hover.after (Function.quiet_boundsAround _ _) fun _ => hover.quiet (quiet_newList _)
  next => exact hover.quiet (Function.quiet_snippetAt _ _)
  next => exact hover.after (quiet_equal _ _) fun _ => .pure _
  next => exact .pure _
  next => exact hover.after (quiet_spell _) fun _ => .pure _
  next => exact hover.after (quiet_hasAttribute _ _) fun _ => .pure _
  next => exact hover.call _ _
  next => exact .pure _
  next => exact .fail _

theorem functionInvoke {name : String} {function : Function} {terms : List Term}
    {named : List (String × Term)} {args : Args}
    (haction : law.action (.call name terms named) = true)
    (hfunction : Function.table.lookup name = some function)
    (hterms : args.positional.length = terms.length) (hnamed : named = [] → args.named = []) :
    Tracks inv (function.invoke free args) (function.invoke watched args) := by
  unfold Function.invoke
  split
  next => exact hover.invokeOther (fun _ => rfl) _
  next => exact .fail _
  next function _ _ _ _ =>
    intro world
    refine hover.look quiet_get fun found after hfound _ => ?_
    cases hfound
    refine hover.look (quiet_bindArgs _ _) fun values after hvalues _ => ?_
    obtain ⟨hbound, rfl⟩ := Args.bind_ok hvalues
    by_cases hnode : function = .newNode
    · subst hnode
      exact hover.functionNode haction hfunction hterms hnamed hbound
    · exact hover.functionApply hnode _

/-! ## Scripts -/

theorem inFrame {α : Type} {freeRun watchedRun : Run α} (frame : Table String Value)
    (hrun : Tracks inv freeRun watchedRun) :
    Tracks inv (Run.inFrame frame freeRun) (Run.inFrame frame watchedRun) := by
  have hframe : ∀ frame : Table String Value,
      (modify fun world => { world with frame } : Run PUnit).Quiet :=
    fun frame => quiet_modify fun _ => .of_eq rfl rfl rfl rfl rfl
  refine hover.after quiet_get fun outer => hover.after (hframe _) fun _ =>
    hrun.observe (fun _ => rfl) fun result => hover.after (hframe _) fun _ => ?_
  split
  next => exact .pure _
  next => exact .fail _

theorem takeEntry {value index : Value} {object : String} {label : Datum}
    (haction : law.action (.drop object label) = true) :
    Tracks inv (Run.takeEntry free value index) (Run.takeEntry watched value index) := by
  unfold Run.takeEntry
  split
  next ref =>
    exact hover.after (quiet_keyOf _) fun key => hover.after (quiet_record _) fun _ =>
      Tracks.bind (fun _ => hover.change (.eraseEntry ref key haction)) fun _ => .pure _
  next => exact .fail _
  next => exact hover.send _ (fun _ => rfl) _

theorem act (hscript : caller.IsScript) {action : Action} (haction : law.action action = true) :
    Tracks inv (Script.act free action) (Script.act watched action) := by
  unfold Script.act
  split
  next name terms named =>
    intro world
    refine hover.look (Script.quiet_evaluateAll terms) fun values after hvalues _ => ?_
    refine hover.look (Script.quiet_evaluateNamed named) fun fields after' hfields _ => ?_
    split
    next function hfunction =>
      refine hover.functionInvoke haction hfunction (evaluateAll_length hvalues) ?_ after'
      rintro rfl
      cases hfields
      rfl
    next => exact Tracks.fail _ _
  next =>
    exact hover.after (Script.quiet_evaluateAll _) fun _ =>
      hover.after (Script.quiet_evaluateNamed _) fun _ => hover.after (quiet_getVariable _) fun _ =>
        hover.invokeOther (hscript _) _
  next =>
    exact hover.after (quiet_getVariable _) fun _ => hover.quiet (Script.quiet_readField _ _)
  next =>
    exact hover.after (quiet_getVariable _) fun _ => hover.after (Script.quiet_evaluate _) fun _ =>
      Tracks.bind (fun _ => hover.change (.write _ _ haction)) fun _ => .pure _
  next =>
    exact hover.after (quiet_getVariable _) fun _ => hover.after (quiet_attributeOf _ _) fun _ =>
      hover.after (quiet_valueOf _) fun _ => hover.takeEntry haction

theorem actInto (hscript : caller.IsScript) {action : Action} (haction : law.action action = true)
    (target : Option String) :
    Tracks inv (Script.actInto free action target) (Script.actInto watched action target) := by
  refine (hover.act hscript haction).bind fun value => ?_
  split
  next => exact hover.after (quiet_setVariable _ _) fun _ => .pure _
  next => exact .pure _

omit hover

mutual

theorem runAll (hover : law.Oversees inv caller free watched) (hscript : caller.IsScript) :
    ∀ {body : List Stmt}, law.allowsAll body = true →
    Tracks inv (Script.runAll free body) (Script.runAll watched body)
  | [], _ => .pure _
  | statement :: rest, hbody => by
      rw [Law.allowsAll, Bool.and_eq_true] at hbody
      refine (run hover hscript hbody.1).bind fun flow => ?_
      split
      next => exact runAll hover hscript hbody.2
      next => exact .pure _

theorem run (hover : law.Oversees inv caller free watched) (hscript : caller.IsScript) :
    ∀ {statement : Stmt}, law.allows statement = true →
    Tracks inv (Script.run free statement) (Script.run watched statement)
  | .give term, _ => hover.after (Script.quiet_evaluate term) fun _ => .pure _
  | .leave, _ => .pure _
  | .trace term, _ =>
      hover.after (Script.quiet_evaluate term) fun _ => hover.after (quiet_picture _) fun _ =>
        hover.after (quiet_note _) fun _ => .pure _
  | .raise _ _, _ => .fail _
  | .branch condition yes no, hboth => by
      rw [Law.allows, Bool.and_eq_true] at hboth
      refine hover.after (Script.quiet_holds condition) fun verdict => ?_
      split
      next => exact runAll hover hscript hboth.1
      next => exact runAll hover hscript hboth.2
  | .loop body, hbody => by
      rw [Script.run, Script.run, hover.fuel]
      exact (runAll hover hscript (by rwa [Law.allows] at hbody)).repeatBody _
  | .attempt body name handler, hboth => by
      rw [Law.allows, Bool.and_eq_true] at hboth
      refine (runAll hover hscript hboth.1).observe (fun _ => rfl) fun result => ?_
      split
      next => exact .pure _
      next => exact .fail _
      next =>
        exact hover.after (quiet_valueOf _) fun _ => hover.after (quiet_setVariable _ _) fun _ =>
          runAll hover hscript hboth.2
  | .act action target, haction => by
      rw [Law.allows] at haction
      exact (hover.actInto hscript haction target).bind fun _ => .pure _

end

include hover

theorem callback (hscript : caller.IsScript) {body : List Stmt} (hbody : law.allowsAll body = true)
    (values : List Value) :
    Tracks inv (Script.callback free body values) (Script.callback watched body values) := by
  refine (hover.inFrame _ (hover.runAll hscript hbody)).bind fun flow => ?_
  split
  next => exact .pure _
  next => exact .pure _

omit hover

/-! ## Kernels -/

/-- What a value does when it is called, it does with the calls that it makes itself. -/
theorem callValue {callable : Value} (hover : law.Oversees inv callable free watched) {args : Args}
    {world : World} (hcall : law.call callable args world = true)
    (hbody : law.allowsBody callable = true) :
    TracksAt inv (Rulebook.callValue free callable args) (Rulebook.callValue watched callable args)
      world := by
  unfold Rulebook.callValue
  split
  next =>
    split
    next => exact hover.callback (isScript_callback _ _ _) hbody _ world
    next => exact Tracks.fail _ _
  next =>
    refine hover.after (quiet_bindArgs _ _) (fun values => ?_) world
    split
    next => exact hover.runPatternRule _ _ _
    next => exact .fail _
  next =>
    refine hover.after (quiet_bindArgs _ _) (fun values => ?_) world
    split
    next => exact hover.stamp _ _ _
    next => exact .fail _
  next =>
    refine hover.after (quiet_bindArgs _ _) (fun values => ?_) world
    split
    next => exact hover.install _ _
    next => exact .fail _
  next =>
    refine hover.after (quiet_bindArgs _ _) (fun values => ?_) world
    split
    next => exact hover.capture _ _ _ _
    next => exact .fail _
  next => exact hover.forwardCapture _ world
  next => exact hover.invokeOther (fun _ => rfl) _ world
  next =>
    refine hover.look (quiet_host _) fun host after hhost _ => ?_
    cases hhost
    split
    next method hmethod => exact hover.hostMethod hcall hmethod
    next => exact hover.quiet (quiet_lacks _ _) world
  next => exact hover.callNode hcall
  next => exact hover.quiet (quiet_callFound _ _ _) world
  next => exact Tracks.fail _ _

end Law.Oversees

namespace Law

/-- A kernel under a law is overseen by it beside any kernel under a law that permits no less. -/
theorem oversees_kernel {law outer : Law} {inv : World → Prop} (hupholds : law.Upholds inv)
    (houter : ∀ caller callee callable args world, inv world →
      outer.asks caller callee callable args world = true)
    (hbodies : ∀ callable, outer.allowsBody callable = true) (caller : Value) (rounds depth : Nat) :
    law.Oversees inv caller (outer.kernel caller rounds depth)
      (law.kernel caller rounds depth) := by
  induction depth generalizing caller with
  | zero => exact ⟨hupholds, ⟨rounds, 0, rfl⟩, rfl, fun _ _ _ _ => Tracks.fail _ _⟩
  | succ depth ih =>
      refine ⟨hupholds, ⟨rounds, depth + 1, rfl⟩, rfl, fun callee args world hcleared => ?_⟩
      refine (ih caller).look (quiet_resolve callee) fun callable after hcallable _ => ?_
      refine (ih caller).look quiet_get fun found after' hfound _ hinv => ?_
      cases hfound
      by_cases hpermits :
          (law.asks caller callee callable args after && law.allowsBody callable) = true
      · rw [if_pos hpermits, if_pos (by rw [houter _ _ _ _ _ hinv, hbodies]; rfl)]
        obtain ⟨hasks, hbody⟩ := Bool.and_eq_true_iff.mp hpermits
        exact (ih callable).callValue (hcleared.call hcallable hasks) hbody hinv
      · rw [if_neg hpermits]
        exact ⟨hinv, Or.inl rfl⟩

section Watching

variable {condition : World → Prop}

mutual

theorem allows_watch : ∀ statement : Stmt, (watch condition).allows statement = true
  | .give _ | .leave | .trace _ | .raise _ _ | .act _ _ => by rw [allows] <;> rfl
  | .branch _ yes no => by rw [allows, allowsAll_watch yes, allowsAll_watch no]; rfl
  | .loop body => by rw [allows, allowsAll_watch body]
  | .attempt body _ handler => by rw [allows, allowsAll_watch body, allowsAll_watch handler]; rfl

theorem allowsAll_watch : ∀ body : List Stmt, (watch condition).allowsAll body = true
  | [] => by rw [allowsAll]
  | statement :: rest => by rw [allowsAll, allows_watch statement, allowsAll_watch rest]; rfl

end

theorem allowsBody_watch (callable : Value) : (watch condition).allowsBody callable = true := by
  unfold allowsBody
  split
  next => exact allowsAll_watch _
  next => rfl

/-- Watching a condition looks at nothing else. -/
theorem asks_watch (caller : Value) (callee : Callee) (callable : Value) (args : Args)
    {world : World} (hholds : condition world) :
    (watch condition).asks caller callee callable args world = true := by
  simp only [asks, watch, hholds, decide_true, ite_self]

end Watching

/-- Watching what holds anyway makes no difference to a call. -/
theorem invokeAt_watch_true (rounds depth : Nat) (caller : Value) :
    (watch fun _ => True).invokeAt rounds depth caller = Rulebook.invokeAt rounds depth := by
  induction depth generalizing caller with
  | zero => rfl
  | succ depth ih =>
      funext callee args
      have hasks : ∀ callable world,
          (watch fun _ => True).asks caller callee callable args world = true :=
        fun callable _ => asks_watch caller callee callable args trivial
      rw [invokeAt]
      simp only [ih, hasks, allowsBody_watch, Bool.and_true, if_true]
      cases callee <;> rfl

theorem kernel_watch_true (caller : Value) (rounds depth : Nat) :
    (watch fun _ => True).kernel caller rounds depth = Kernel.ofDepth rounds depth := by
  rw [kernel, invokeAt_watch_true, Kernel.ofDepth]

/-- What upholds a law is kept by the calls under it, which go along with the calls themselves. -/
theorem oversees_free {law : Law} {inv : World → Prop} (hupholds : law.Upholds inv)
    (caller : Value) (rounds depth : Nat) :
    law.Oversees inv caller (Kernel.ofDepth rounds depth) (law.kernel caller rounds depth) := by
  have hover := oversees_kernel hupholds (fun _ _ _ _ _ _ => asks_watch _ _ _ _ trivial)
    (@allowsBody_watch fun _ => True) caller rounds depth
  rwa [kernel_watch_true] at hover

/-- What upholds a law holds throughout a run that keeps it, and so does what follows from it. -/
theorem Keeps.throughout {law : Law} {inv condition : World → Prop} {rounds depth : Nat}
    {body : List Stmt} (hkeeps : law.Keeps rounds depth body) (hupholds : law.Upholds inv)
    (hstart : inv .start) (hcondition : ∀ world, inv world → condition world) :
    Throughout condition rounds depth body := by
  obtain ⟨hbody, hwhole⟩ := hkeeps
  -- the lawful run is compared with the run itself and with the one that watches the condition
  have hrun : ∀ watched : World → Prop, (∀ world, inv world → watched world) →
      inv ((Script.runAll (law.kernel .null rounds depth) body).outcome .start).2 ∧
        (Script.runAll ((watch watched).kernel .null rounds depth) body).outcome .start =
          (Script.runAll (law.kernel .null rounds depth) body).outcome .start := by
    intro watched hwatched
    have hover : law.Oversees inv .null ((watch watched).kernel .null rounds depth)
        (law.kernel .null rounds depth) :=
      oversees_kernel hupholds (fun _ _ _ _ world hinv => asks_watch _ _ _ _ (hwatched world hinv))
        allowsBody_watch .null rounds depth
    obtain ⟨hinv, hsame⟩ := hover.runAll isScript_null hbody .start hstart
    refine ⟨hinv, hsame.resolve_left fun hcut => ?_⟩
    rw [hcut] at hwhole
    cases hwhole
  obtain ⟨hinv, hfree⟩ := hrun (fun _ => True) fun _ _ => trivial
  obtain ⟨_, hwatched⟩ := hrun condition hcondition
  rw [kernel_watch_true] at hfree
  refine ⟨?_, hwatched.trans hfree.symm⟩
  rw [hfree]
  exact hcondition _ hinv

end Law

end Rulebook
