import Rulebook.Proofs.Oversight
import Rulebook.Proofs.Extension.Parser

/-!
# Scripts and calls with more rules in a table

A script that reads no table of rules or patterns and takes no rule out goes the same way with more
rules in the table of a parser. So does every call, as long as a guard sees to it that no such
script is called, that nothing is registered on the parser, that only rules that were in its table
are looked up, and that none of its steps runs out of rules.
-/

namespace Rulebook

open Run (wasCutOff)

variable {ext : Extension} {id : HostId}

/-! ## Guards -/

/-- What calls go through: it depends on who makes a call to whom, and on what is called in the end
with which arguments. -/
structure Guard where
  admits : Value → Callee → Bool
  permits : Value → Args → Bool

namespace Guard

/-- The guard by which all calls go through. -/
def none : Guard := ⟨fun _ _ => true, fun _ _ => true⟩

/-- A guard lets through what another does. -/
structure Within (guard outer : Guard) : Prop where
  admits : ∀ caller callee, guard.admits caller callee = true → outer.admits caller callee = true
  permits : ∀ callable args, guard.permits callable args = true →
    outer.permits callable args = true

theorem within_none (guard : Guard) : guard.Within none := ⟨fun _ _ _ => rfl, fun _ _ _ => rfl⟩

theorem Within.refl (guard : Guard) : guard.Within guard := ⟨fun _ _ => id, fun _ _ => id⟩

/-- Makes a call if it goes through, and cuts the run off if not. -/
def invokeAt (guard : Guard) (rounds : Nat) : Nat → Value → Callee → Args → Run Value
  | 0, caller, callee, _ =>
    if guard.admits caller callee then Run.fail .tooDeep else Run.fail .outOfFuel
  | depth + 1, caller, callee, args =>
    if guard.admits caller callee then do
      let callable ← Law.resolve callee
      if guard.permits callable args then
        callValue ⟨rounds, guard.invokeAt rounds depth callable⟩ callable args
      else Run.fail .outOfFuel
    else Run.fail .outOfFuel

/-- The kernel by which a caller makes the calls that go through. -/
def kernel (guard : Guard) (caller : Value) (rounds depth : Nat) : Kernel :=
  ⟨rounds, guard.invokeAt rounds depth caller⟩

theorem invokeAt_none (rounds depth : Nat) (caller : Value) :
    none.invokeAt rounds depth caller = Rulebook.invokeAt rounds depth := by
  induction depth generalizing caller with
  | zero => rfl
  | succ depth ih =>
      funext callee args
      have hadmits : none.admits caller callee = true := rfl
      have hpermits : ∀ callable, none.permits callable args = true := fun _ => rfl
      rw [invokeAt]
      simp only [ih, hadmits, hpermits, if_true]
      cases callee <;> rfl

/-- Without a guard calls are made as ever. -/
theorem kernel_none (caller : Value) (rounds depth : Nat) :
    none.kernel caller rounds depth = Kernel.ofDepth rounds depth := by
  rw [kernel, invokeAt_none, Kernel.ofDepth]

end Guard

/-! ## Scripts that leave the tables alone -/

/-- The law for scripts that neither read the tables of rules and patterns nor take out rules. -/
def Law.leavesTables : Law where
  call _ _ _ := true
  own _ _ _ := true
  action
    | .read _ field => field ∉ Script.pairFields
    | .drop _ _ => false
    | _ => true

/-- Whether a call keeps to the rules that a parser has under some keys: nothing is registered on
the parser, no rule is looked up or applied under another key, and no script is called that reads a
table or takes out a rule. What has no key names no rule. -/
def Value.keepsTo (id : HostId) (keys : List Key) (callable : Value) (args : Args) : Bool :=
  match callable with
  | .callback _ _ body => Law.leavesTables.allowsAll body
  | .method _ (.host number) "set" => number != id
  | .method _ (.host number) "get" | .method _ (.host number) "apply" =>
    number != id || (args.bind? ParserMethod.get.params).all fun labels =>
      labels.all fun label => label.key?.all (· ∈ keys)
  | _ => true

/-- Whether a caller is a step of a parser that has run out of rules: it asks where it is, so that
it can complain. -/
def Value.isStuckStep (id : HostId) (caller : Value) (callee : Callee) : Bool :=
  match caller, callee with
  | .method _ (.host number) "_step", .method (.host other) "location" =>
    number == id && other == id
  | _, _ => false

/-- The guard by which runs keep to the rules that a parser has under some keys. -/
def Guard.among (id : HostId) (keys : List Key) : Guard := ⟨fun _ _ => true, Value.keepsTo id keys⟩

/-- The guard by which, besides, no step of the parser runs out of rules. -/
def Guard.sufficing (id : HostId) (keys : List Key) : Guard :=
  ⟨fun caller callee => !caller.isStuckStep id callee, Value.keepsTo id keys⟩

namespace Extension

/-- How a statement ends ignores the tables. -/
def FlowIgnores (ext : Extension) : Script.Flow → Prop
  | .gave result => result.Ignores ext.id
  | _ => True

namespace Follows

variable {value : Value}

theorem getVariable (name : String) :
    ext.Keeps (Value.Ignores ext.id) (Run.getVariable name) := by
  refine get fun world patterns notices hfits => ?_
  have hfields : FieldsIgnore ext.id
      (if Run.isGlobal name then world.globals else world.frame) := by
    split
    next => exact hfits.ignores.globals
    next => exact hfits.ignores.frame
  rw [globals_widen, frame_widen]
  split
  next value hvalue => exact pure (hfields.get? hvalue)
  next => exact fail _

theorem setVariable (name : String) (hvalue : value.Ignores ext.id) :
    ext.Keeps (fun _ => True) (Run.setVariable name value) := by
  refine modify fun {world} hfits => ?_
  split
  next =>
    refine ⟨hfits.congr rfl ?_, fun _ _ => ⟨_, _, rfl⟩⟩
    exact { hfits.ignores with globals := hfits.ignores.globals.insert name hvalue }
  next =>
    refine ⟨hfits.congr rfl ?_, fun _ _ => ⟨_, _, rfl⟩⟩
    exact { hfits.ignores with frame := hfits.ignores.frame.insert name hvalue }

theorem note (datum : Datum) : ext.Keeps (fun _ => True) (Run.note datum) :=
  modify fun hfits => ⟨hfits.congr rfl { hfits.ignores with }, fun _ _ => ⟨_, _, rfl⟩⟩

theorem setFrame {frame : Table String Value} (hframe : FieldsIgnore ext.id frame) :
    ext.Keeps (fun _ => True)
      (MonadState.modifyGet fun world => ((), { world with frame }) : Run Unit) :=
  modify fun hfits =>
    ⟨hfits.congr rfl { hfits.ignores with frame := hframe }, fun _ _ => ⟨_, _, rfl⟩⟩

theorem inFrame {α : Type} {holds : α → Prop} {run run' : Run α} {frame : Table String Value}
    (hframe : FieldsIgnore ext.id frame) (hrun : ext.Follows holds run run') :
    ext.Follows holds (Run.inFrame frame run) (Run.inFrame frame run') := by
  refine get fun world patterns notices hfits => ?_
  have houter : FieldsIgnore ext.id world.frame := hfits.ignores.frame
  refine (setFrame hframe).bind fun _ _ => hrun.observe (fun _ => rfl) ?_ ?_
  · exact fun result hresult => (setFrame houter).bind fun _ _ => pure hresult
  · exact fun fault => (setFrame houter).bind fun _ _ => fail fault

/-! ## Expressions -/

theorem evaluate (term : Term) : ext.Keeps (Value.Ignores ext.id) (Script.evaluate term) := by
  cases term with
  | datum datum => exact valueOf datum
  | var name => exact getVariable name
  | bytes value => exact pure trivial
  | pattern => exact (compile _ _ _ _).bind fun _ _ => pure trivial
  | callback name body => exact fresh.bind fun _ _ => pure trivial

theorem evaluateAll (terms : List Term) :
    ext.Keeps (AllIgnore ext.id) (Script.evaluateAll terms) := by
  induction terms with
  | nil => exact pure .nil
  | cons term rest ih =>
      exact (evaluate term).bind fun _ hvalue =>
        ih.bind fun _ hvalues => pure (.cons hvalue hvalues)

theorem evaluateNamed (terms : List (String × Term)) :
    ext.Keeps (fun named : List (String × Value) => ∀ arg ∈ named, Value.Ignores ext.id arg.2)
      (Script.evaluateNamed terms) := by
  induction terms with
  | nil => exact pure Table.All.empty
  | cons named rest ih =>
      exact (evaluate named.2).bind fun _ hvalue => ih.bind fun _ hvalues =>
        pure (List.forall_mem_cons.mpr ⟨hvalue, hvalues⟩)

theorem holds : ∀ condition : Cond, ext.Keeps (fun _ => True) (Script.holds condition)
  | .not condition => (holds condition).bind fun _ _ => pure trivial
  | .present term => (evaluate term).bind fun value _ => by
      split <;> exact pure trivial
  | .equal first second =>
      (evaluate first).bind fun _ hone => (evaluate second).bind fun _ htwo => equal hone htwo

/-! ## Statements -/

theorem readField (hvalue : value.Ignores ext.id) {field : String}
    (hfield : field ∉ Script.pairFields) :
    ext.Keeps (Value.Ignores ext.id) (Script.readField value field) := by
  simp only [Script.pairFields, List.mem_cons, List.not_mem_nil, or_false, not_or] at hfield
  obtain ⟨hrules, hregex⟩ := hfield
  refine (attributeOf_ignores hvalue hrules hregex).bind fun content hcontent => ?_
  rw [if_neg (by simp [Script.pairFields, hrules, hregex])]
  exact pure hcontent

section Statement

variable {kernel kernel' : Kernel} (hcalls : ext.Calls kernel kernel')

include hcalls

theorem act (action : Action) (haction : Law.leavesTables.action action = true) :
    ext.Follows (Value.Ignores ext.id) (Script.act kernel action) (Script.act kernel' action) := by
  cases action with
  | call function arguments named =>
      refine (evaluateAll arguments).bind fun values hvalues => ?_
      refine (evaluateNamed named).bind fun given hgiven => ?_
      split
      next function _ => exact functionInvoke hcalls function ⟨hvalues, hgiven⟩
      next => exact fail _
  | send object method arguments named =>
      refine (evaluateAll arguments).bind fun values hvalues => ?_
      refine (evaluateNamed named).bind fun given hgiven => ?_
      exact (getVariable object).bind fun receiver hreceiver =>
        hcalls.invoke hreceiver ⟨hvalues, hgiven⟩
  | read object field =>
      exact (getVariable object).bind fun receiver hreceiver =>
        readField hreceiver (of_decide_eq_true haction)
  | write object field term =>
      exact (getVariable object).bind fun target _ => (evaluate term).bind fun content hcontent =>
        (setAttribute target field hcontent).bind fun _ _ => pure .null
  | drop => cases haction

theorem actInto (action : Action) (target : Option String)
    (haction : Law.leavesTables.action action = true) :
    ext.Follows (Value.Ignores ext.id) (Script.actInto kernel action target)
      (Script.actInto kernel' action target) := by
  refine (act hcalls action haction).bind fun result hresult => ?_
  cases target with
  | none => exact pure hresult
  | some name => exact (setVariable name hresult).bind fun _ _ => pure hresult

omit hcalls in
theorem repeatBody {body body' : Run Script.Flow}
    (hbody : ext.Follows (FlowIgnores ext) body body') (fuel : Nat) :
    ext.Follows (FlowIgnores ext) (Script.repeatBody body fuel) (Script.repeatBody body' fuel) := by
  induction fuel with
  | zero => exact fail _
  | succ fuel ih =>
      refine hbody.bind fun flow hflow => ?_
      cases flow with
      | onward => exact ih
      | left => exact pure trivial
      | gave result => exact pure hflow

-- either of the two needs the kernel for the other
set_option linter.unusedSectionVars false in
mutual

theorem runAll : ∀ statements : List Stmt, Law.leavesTables.allowsAll statements = true →
    ext.Follows (FlowIgnores ext) (Script.runAll kernel statements)
      (Script.runAll kernel' statements)
  | [], _ => pure trivial
  | statement :: rest, hboth => by
      rw [Law.allowsAll, Bool.and_eq_true] at hboth
      obtain ⟨hstatement, hrest⟩ := hboth
      rw [Script.runAll, Script.runAll]
      refine (run statement hstatement).bind fun flow hflow => ?_
      cases flow with
      | onward => exact runAll rest hrest
      | left => exact pure trivial
      | gave result => exact pure hflow

theorem run : ∀ statement : Stmt, Law.leavesTables.allows statement = true →
    ext.Follows (FlowIgnores ext) (Script.run kernel statement) (Script.run kernel' statement)
  | .give result, _ => (evaluate result).bind fun _ hresult => pure hresult
  | .leave, _ => pure trivial
  | .trace term, _ =>
      (evaluate term).bind fun _ hvalue => (picture hvalue).bind fun _ _ =>
        (note _).bind fun _ _ => pure trivial
  | .raise _ _, _ => fail _
  | .branch condition yes no, hboth => by
      rw [Law.allows, Bool.and_eq_true] at hboth
      obtain ⟨hyes, hno⟩ := hboth
      exact (holds condition).bind fun _ _ => ite (runAll yes hyes) (runAll no hno)
  | .loop body, hbody => by
      rw [Law.allows] at hbody
      rw [Script.run, Script.run, hcalls.fuel]
      exact repeatBody (runAll body hbody) _
  | .attempt body name handler, hboth => by
      rw [Law.allows, Bool.and_eq_true] at hboth
      obtain ⟨hbody, hhandler⟩ := hboth
      refine (runAll body hbody).observe (fun _ => rfl) (fun _ hflow => pure hflow) ?_
      intro fault
      split
      next => contradiction
      next => exact fail _
      next =>
        refine (valueOf _).bind fun _ hvalue => (setVariable name hvalue).bind fun _ _ => ?_
        exact runAll handler hhandler
  | .act action target, haction => by
      rw [Law.allows] at haction
      exact (actInto hcalls action target haction).bind fun _ _ => pure trivial

end

end Statement

/-! ## Calls -/

section Call

variable {values : List Value} {args : Args}

theorem fieldsIgnore_frameOf (hvalues : AllIgnore id values) :
    FieldsIgnore id (Script.frameOf values) := by
  cases values with
  | nil => exact .empty
  | cons self rest =>
      obtain ⟨hself, hrest⟩ := List.forall_mem_cons.mp hvalues
      refine List.forall_mem_cons.mpr ⟨hself, fun entry hentry => ?_⟩
      obtain ⟨place, hplace, rfl⟩ := List.mem_mapIdx.mp hentry
      exact hrest _ (List.getElem_mem hplace)

theorem callFound (pattern : Pattern) (found : Pattern.Match) (args : Args) :
    ext.Keeps (Value.Ignores ext.id) (Rulebook.callFound pattern found args) := by
  unfold Rulebook.callFound
  refine ite (fail _) ?_
  split
  next => exact groupOf pattern found (.int 0)
  next => exact groupOf pattern found _
  next =>
    have hgroup : ∀ {index : Value}, True →
        ext.Keeps (Value.Ignores ext.id) (Run.groupOf pattern found index) :=
      fun _ => groupOf pattern found _
    exact (mapM (fun _ _ => trivial) hgroup).bind fun _ hgroups => newList hgroups

variable {kernel kernel' : Kernel} (hcalls : ext.Calls kernel kernel')

include hcalls

theorem callback {body : List Stmt} (hbody : Law.leavesTables.allowsAll body = true)
    (hvalues : AllIgnore ext.id values) :
    ext.Follows (Value.Ignores ext.id) (Script.callback kernel body values)
      (Script.callback kernel' body values) := by
  refine (inFrame (fieldsIgnore_frameOf hvalues) (runAll hcalls body hbody)).bind
    fun flow hflow => ?_
  cases flow with
  | gave result => exact pure hflow
  | _ => exact pure trivial

theorem callNode (node : NodeId) (name : String) (hargs : args.Ignores ext.id) :
    ext.Follows (Value.Ignores ext.id) (Rulebook.callNode kernel node name args)
      (Rulebook.callNode kernel' node name args) := by
  unfold Rulebook.callNode
  split
  next =>
    refine (bindArgs hargs (.needed _ (.needed _ .nil))).bind fun values hvalues => ?_
    split
    next key value =>
      obtain ⟨hkey, hrest⟩ := List.forall_mem_cons.mp hvalues
      refine (cell node).bind fun cell hcell => ?_
      exact (setItem (hcell.notes.heldUnder _) hkey (hrest value List.mem_cons_self)).bind
        fun _ _ => pure trivial
    next => exact fail _
  next =>
    refine (bindArgs hargs (.needed _ .nil)).bind fun values hvalues => ?_
    split
    next child =>
      have hchild := hvalues child List.mem_cons_self
      refine (setAttribute child "parent" (.node node)).bind fun _ _ => ?_
      refine (cell node).bind fun cell hcell => ?_
      exact (append hcalls hcell.children hchild).bind fun _ _ => pure hchild
    next => exact fail _
  next => exact lacks _ _

omit hcalls in
/-- Calls that keep to the rules are those that may be made of the methods of the parser. -/
theorem permits_of_keepsTo {serial : Nat} {own : ParserMethod}
    (hkeeps : (Value.method serial (.host ext.id) own.name).keepsTo ext.id ext.rules.keys args =
      true)
    (hvalues : args.bind? own.params = some values)
    (hstuck : own = .step → ∀ world,
      wasCutOff ((kernel.sendHost ext.id "location" []).outcome world).1 = true) :
    ext.Permits kernel own values where
  set hset := by
    subst hset
    simp [Value.keepsTo, ParserMethod.name] at hkeeps
  get hget label hlabel key hkey := by
    subst hget
    simp only [Value.keepsTo, ParserMethod.name, bne_self_eq_false, Bool.false_or, hvalues,
      Option.all_some, List.all_eq_true, Option.all_eq_true, decide_eq_true_eq] at hkeeps
    exact hkeeps label hlabel key hkey
  step := hstuck

/-- A call that keeps to the rules goes the same way if its steps are stopped where they run out of
rules. -/
theorem callValue {callable : Value} (hcallable : callable.Ignores ext.id)
    (hargs : args.Ignores ext.id)
    (hkeeps : callable.keepsTo ext.id ext.rules.keys args = true)
    (hstuck : ∀ serial, callable = .method serial (.host ext.id) "_step" → ∀ world,
      wasCutOff ((kernel.sendHost ext.id "location" []).outcome world).1 = true) :
    ext.Follows (Value.Ignores ext.id) (Rulebook.callValue kernel callable args)
      (Rulebook.callValue kernel' callable args) := by
  unfold Rulebook.callValue
  split
  next => exact ite (callback hcalls hkeeps hargs.positional) (fail _)
  next =>
    refine (bindArgs hargs (.needed _ .nil)).bind fun values hvalues => ?_
    split
    next => exact runPatternRule hcalls hcallable.1 hcallable.2 (hvalues _ List.mem_cons_self)
    next => exact fail _
  next =>
    refine (bindArgs hargs (.needed _ .nil)).bind fun values hvalues => ?_
    split
    next => exact stamp _ hcalls hcallable (hvalues _ List.mem_cons_self)
    next => exact fail _
  next =>
    refine (bindArgs hargs (.needed _ (.optional _ .null .nil))).bind fun values hvalues => ?_
    split
    next kind =>
      obtain ⟨hhost, hrest⟩ := List.forall_mem_cons.mp hvalues
      exact install hcalls hhost (hrest kind List.mem_cons_self)
    next => exact fail _
  next =>
    refine (bindArgs hargs (.needed _ (.needed _ (.needed _
      (.optional _ (.text "") .nil))))).bind fun values hvalues => ?_
    split
    next =>
      simp only [allIgnore_cons] at hvalues
      obtain ⟨hparser, hlabel, hmatcher, hflags, _⟩ := hvalues
      exact capture hcalls hparser hlabel hmatcher hflags
    next => exact fail _
  next => exact forwardCapture hcalls hargs
  next =>
    exact hcalls.invoke hcallable ⟨.cons trivial hargs.positional, hargs.named⟩
  next serial number name =>
    refine host number (fun _ _ _ => rfl) fun host _ => ?_
    split
    next method hmethod =>
      refine hostMethod number hcalls method hargs fun hself own values hown hvalues => ?_
      subst hown
      have hname : own.name = name := HostClass.name_of_method? hmethod
      subst hself hname
      refine permits_of_keepsTo hkeeps hvalues fun hstep => hstuck serial ?_
      rw [hstep, ParserMethod.name]
    next => exact lacks _ _
  next => exact callNode hcalls _ _ hargs
  next => exact callFound _ _ _
  next => exact fail _

end Call

/-- What a call comes to ignores the tables, or it is one of them and cannot be called. -/
theorem resolve {callee : Callee} (hcallee : callee.Ignores ext.id) :
    ext.Keeps (fun callable => callable.Ignores ext.id ∨ ∃ ref, callable = .record ref)
      (Law.resolve callee) := by
  cases callee with
  | value callable => exact pure (.inl hcallee)
  | method receiver name =>
      refine (attributeOf hcallee name).mono fun callable hheld => ?_
      rcases hheld with hcallable | ⟨_, heq⟩ | ⟨_, heq⟩
      · exact .inl hcallable
      · exact .inr ⟨_, heq⟩
      · exact .inr ⟨_, heq⟩

end Follows

/-! ## Kernels -/

/-- The guard by which runs keep to the rules without those that are added. -/
def guard (ext : Extension) : Guard := .sufficing ext.id ext.rules.keys

/-- A step of the parser cannot ask where it is. -/
theorem cutOff_stuckStep (ext : Extension) (serial rounds depth : Nat) (world : World) :
    wasCutOff (((ext.guard.kernel (.method serial (.host ext.id) "_step") rounds depth).sendHost
      ext.id "location" []).outcome world).1 = true := by
  have hrefuses : ext.guard.admits (.method serial (.host ext.id) "_step")
      (.method (.host ext.id) "location") = false := by
    simp [guard, Guard.sufficing, Value.isStuckStep]
  have hinvoke : (ext.guard.kernel (.method serial (.host ext.id) "_step") rounds depth).sendHost
      ext.id "location" [] = Run.fail .outOfFuel := by
    change ext.guard.invokeAt rounds depth _ _ _ = _
    cases depth with
    | zero => rw [Guard.invokeAt, if_neg (by rw [hrefuses]; decide)]
    | succ depth => rw [Guard.invokeAt, if_neg (by rw [hrefuses]; decide)]
  rw [hinvoke]
  rfl

/-- Without the added rules calls under the guard go as they do with them, under any guard that
lets as much through. -/
theorem calls_kernel {outer : Guard} (hwithin : ext.guard.Within outer) (caller : Value)
    (rounds depth : Nat) :
    ext.Calls (ext.guard.kernel caller rounds depth) (outer.kernel caller rounds depth) := by
  -- what is called is the caller of the calls further in, so that the caller has to vary
  induction depth generalizing caller with
  | zero =>
      refine ⟨rfl, fun {callee args} _ _ => ?_⟩
      change ext.Follows _ (ext.guard.invokeAt _ _ _ _ _) (outer.invokeAt _ _ _ _ _)
      by_cases hadmits : ext.guard.admits caller callee = true
      · rw [Guard.invokeAt, Guard.invokeAt, if_pos hadmits, if_pos (hwithin.admits _ _ hadmits)]
        exact .fail _
      · rw [Guard.invokeAt, if_neg hadmits]
        exact .outOfFuel _
  | succ depth ih =>
      refine ⟨rfl, fun {callee args} hcallee hargs => ?_⟩
      change ext.Follows _ (ext.guard.invokeAt _ _ _ _ _) (outer.invokeAt _ _ _ _ _)
      by_cases hadmits : ext.guard.admits caller callee = true
      · rw [Guard.invokeAt, Guard.invokeAt, if_pos hadmits, if_pos (hwithin.admits _ _ hadmits)]
        refine (Follows.resolve hcallee).bind fun callable hcallable => ?_
        by_cases hpermits : ext.guard.permits callable args = true
        · rw [if_pos hpermits, if_pos (hwithin.permits _ _ hpermits)]
          rcases hcallable with hcallable | ⟨ref, rfl⟩
          -- a step that has run out of rules is the one caller that the guard turns away
          · refine .callValue (ih callable) hcallable hargs hpermits ?_
            rintro serial rfl
            exact ext.cutOff_stuckStep serial rounds depth
          · exact .fail _
        · rw [if_neg hpermits]
          exact .outOfFuel _
      · rw [Guard.invokeAt, if_neg hadmits]
        exact .outOfFuel _

end Extension

end Rulebook
