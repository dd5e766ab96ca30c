import Rulebook.Interpreter
import Rulebook.Proofs.Alike.Parser

/-!
# Scripts that go the same way

A script that does not read a registry goes the same way in worlds that are alike, and so does
every call of what is alike, however many rounds loops may go and however deep calls may be nested.
-/

namespace Rulebook

variable {bond : Bond}

/-- Two statements end alike. -/
inductive FlowAlike (bond : Bond) : Script.Flow → Script.Flow → Prop
  | onward : FlowAlike bond .onward .onward
  | left : FlowAlike bond .left .left
  | gave {result result' : Value} (halike : result.Alike bond result') :
      FlowAlike bond (.gave result) (.gave result')

/-! ## Parameters -/

theorem params_function (bond : Bond) (world : World) (function : Function) :
    bond.Params (function.params world) := by
  cases function with
  | newHost hostClass =>
      cases hostClass <;> first | exact .nil | exact .cons (.some .null) .nil
  | _ =>
      repeat' first
        | exact .nil
        | refine .cons ?_ ?_
        | exact .none
        | exact .some (.record trivial)
        | exact .some (by constructor)

theorem World.Alike.functionParams {world world' : World} (hworld : world.Alike bond world')
    (function : Function) : function.params world = function.params world' := by
  cases function with
  | newHost hostClass => cases hostClass <;> rfl
  | newNode => exact congrArg Function.nodeParams hworld.sizes.forest.symm
  | _ => rfl

theorem World.Alike.setFrame {world world' : World} (hworld : world.Alike bond world')
    {frame frame' : Table String Value} (hframe : bond.Fields frame frame') :
    World.Alike bond { world with frame } { world' with frame := frame' } :=
  { hworld with sizes := { hworld.sizes with }, frame := hframe }

namespace Bond.Follows

variable {kernel kernel' : Kernel} {value value' other other' : Value}

/-! ## Functions -/

theorem kindOf (halike : value.Alike bond value') :
    bond.Follows Eq (Function.kindOf value) (Function.kindOf value') := by
  have hother : bond.Follows (@Eq HostKind)
      (do Run.fail (.unknownHostKind (← Run.spell value)))
      (do Run.fail (.unknownHostKind (← Run.spell value'))) :=
    (spell halike).bindEq fun _ => fail _
  cases halike with
  | text text =>
      unfold Function.kindOf
      split
      next => exact pure rfl
      next => exact pure rfl
      next => contradiction
      next => exact hother
  | kind kind => exact pure rfl
  | _ => exact hother

theorem kindOrNull (halike : value.Alike bond value') :
    bond.Follows (Value.Alike bond) (Function.kindOrNull value) (Function.kindOrNull value') := by
  have hkind : bond.Follows (Value.Alike bond)
      (do return .kind (← Function.kindOf value)) (do return .kind (← Function.kindOf value')) :=
    (kindOf halike).bindEq fun kind => pure (.kind kind)
  cases halike with
  | null => exact pure .null
  | _ => exact hkind

theorem placeIn (length standard : Nat) (halike : value.Alike bond value') :
    bond.Follows Eq (Function.placeIn length standard value)
      (Function.placeIn length standard value') := by
  cases halike <;> first | exact pure rfl | exact fail _

theorem boundsAround (halike : value.Alike bond value') (hplace : other.Alike bond other') :
    bond.Follows Eq (Function.boundsAround value other) (Function.boundsAround value' other') := by
  cases halike with
  | text =>
      exact (placeIn _ _ hplace).bindEq fun _ => (placeIn _ _ hplace).bindEq fun _ => pure rfl
  | bytes => exact fail _
  | _ => exact lacks (by constructor <;> assumption) "rfind"

theorem snippetAt (halike : value.Alike bond value') (hplace : other.Alike bond other') :
    bond.Follows (Value.Alike bond) (Function.snippetAt value other)
      (Function.snippetAt value' other') := by
  refine (boundsAround halike hplace).bindEq fun bounds => ?_
  dsimp only
  rw [hplace.index?]
  cases halike with
  | text =>
      cases other'.index? with
      | none => exact fail _
      | some index => exact ite (pure (.text _)) (fail _)
  | _ => exact fail _

theorem newHostValue {run run' : Run HostId} (hrun : bond.Follows bond.Seen run run') :
    bond.Follows (Value.Alike bond) (do return .host (← run)) (do return .host (← run')) := by
  refine hrun.bind ?_
  rintro id _ ⟨rfl, hid⟩
  exact pure (.host hid)

section Function

variable {values values' : List Value} (hkernel : kernel.Alike bond kernel')

include hkernel

theorem functionApply (function : Function)
    (hvalues : List.Forall₂ (Value.Alike bond) values values') :
    bond.Follows (Value.Alike bond) (function.apply kernel values)
      (function.apply kernel' values') := by
  cases function with
  | newHost hostClass =>
      cases hostClass with
      | thing =>
          rcases hvalues with _ | ⟨hoptions, _ | ⟨_, _⟩⟩
          · exact newHostValue (newOfClass .thing .null)
          · exact newHostValue (newOfClass .thing hoptions)
          · exact fail _
      | _ =>
          rcases hvalues with _ | ⟨hoptions, _ | ⟨_, _⟩⟩ <;> try exact fail _
          exact newHostValue (newOfClass _ hoptions)
  | newNode =>
      rcases hvalues with _ | ⟨hlabel, _ | ⟨hval, _ | ⟨hposition, _ | ⟨hchildren, _ | ⟨hparent, _ |
        ⟨hnotes, _ | ⟨_, _⟩⟩⟩⟩⟩⟩⟩ <;> try exact fail _
      refine (newNode hlabel hval hposition).bindEq fun id => ?_
      refine bindEq (changeCell id ?_) fun _ => pure (.node id)
      exact
        { alike := fun hcell =>
            { hcell with children := hchildren, parent := hparent, notes := hnotes }
          keeps := ⟨fun _ => rfl, fun _ => rfl⟩
          keeps' := ⟨fun _ => rfl, fun _ => rfl⟩ }
  | newLocation =>
      rcases hvalues with _ | ⟨hline, _ | ⟨hcolumn, _ | ⟨hoffset, _ | ⟨_, _⟩⟩⟩⟩ <;> try exact fail _
      exact fresh.bind fun _ _ hserial => pure (.location hserial hline hcolumn hoffset)
  | newSpan =>
      rcases hvalues with _ | ⟨hstart, _ | ⟨hstop, _ | ⟨_, _⟩⟩⟩ <;> try exact fail _
      exact fresh.bind fun _ _ hserial => pure (.span hserial hstart hstop)
  | compilePattern =>
      rcases hvalues with _ | ⟨hsource, _ | ⟨hflags, _ | ⟨_, _⟩⟩⟩ <;> try exact fail _
      exact (compilePattern hsource hflags).bindEq fun pattern => pure (.pattern pattern)
  | patternRule =>
      rcases hvalues with _ | ⟨hlabel, _ | ⟨hpattern, _ | ⟨_, _⟩⟩⟩ <;> try exact fail _
      exact makePatternRule hlabel hpattern
  | captureRule =>
      rcases hvalues with _ | ⟨hparser, _ | ⟨hlabel, _ | ⟨hmatcher, _ | ⟨hflags, _ | ⟨_, _⟩⟩⟩⟩⟩ <;>
        try exact fail _
      exact capture hkernel hparser hlabel hmatcher hflags
  | plugin =>
      rcases hvalues with _ | ⟨_, _ | ⟨_, _⟩⟩ <;> try exact fail _
      exact fresh.bind fun _ _ hserial => pure (.plugin hserial)
  | install =>
      rcases hvalues with _ | ⟨hhost, _ | ⟨_, _ | ⟨hkind, _ | ⟨_, _⟩⟩⟩⟩ <;> try exact fail _
      exact (kindOrNull hkind).bind fun _ _ hexpected => install hkernel hhost hexpected
  | resolve =>
      rcases hvalues with _ | ⟨hhost, _ | ⟨hkind, _ | ⟨_, _⟩⟩⟩ <;> try exact fail _
      exact (kindOrNull hkind).bind fun _ _ hexpected =>
        (resolveKind hhost hexpected).bindEq fun kind => pure (.kind kind)
  | appliesTo =>
      rcases hvalues with _ | ⟨hkind, _ | ⟨hhost, _ | ⟨_, _⟩⟩⟩ <;> try exact fail _
      refine (kindOf hkind).bindEq fun kind => get fun world world' hworld => ?_
      rw [hworld.kindsOf hhost]
      exact pure (.bool _)
  | lineBounds =>
      rcases hvalues with _ | ⟨hsource, _ | ⟨hplace, _ | ⟨_, _⟩⟩⟩ <;> try exact fail _
      exact (boundsAround hsource hplace).bindEq fun _ =>
        newList (.cons (.int _) (.cons (.int _) .nil))
  | caretSnippet =>
      rcases hvalues with _ | ⟨hsource, _ | ⟨hplace, _ | ⟨_, _⟩⟩⟩ <;> try exact fail _
      exact snippetAt hsource hplace
  | equal =>
      rcases hvalues with _ | ⟨hone, _ | ⟨htwo, _ | ⟨_, _⟩⟩⟩ <;> try exact fail _
      exact (equal hone htwo).bindEq fun verdict => pure (.bool verdict)
  | same =>
      rcases hvalues with _ | ⟨hone, _ | ⟨htwo, _ | ⟨_, _⟩⟩⟩ <;> try exact fail _
      refine pure ?_
      rw [hone.same htwo]
      exact .bool _
  | spell =>
      rcases hvalues with _ | ⟨hvalue, _ | ⟨_, _⟩⟩ <;> try exact fail _
      exact (spell hvalue).bindEq fun text => pure (.text text)
  | has =>
      rcases hvalues with _ | ⟨hvalue, _ | ⟨hname, _ | ⟨_, _⟩⟩⟩ <;> try exact fail _
      · cases hname with
        | text name => exact (hasAttribute hvalue name).bindEq fun verdict => pure (.bool verdict)
        | _ => exact fail _
      · cases hname <;> exact fail _
  | call => exact fail _
  | stampOf =>
      rcases hvalues with _ | ⟨hstamp, _ | ⟨hnode, _ | ⟨_, _⟩⟩⟩ <;> try exact fail _
      exact hkernel.call hstamp (.cons hnode .nil)
  | isRuntimeError =>
      rcases hvalues with _ | ⟨_, _⟩ <;> try exact fail _
      exact pure (.bool true)


theorem functionInvoke (function : Function) {args args' : Args} (hargs : args.Alike bond args') :
    bond.Follows (Value.Alike bond) (function.invoke kernel args)
      (function.invoke kernel' args') := by
  by_cases hcall : function = .call
  · subst hcall
    obtain ⟨positional, named⟩ := args
    obtain ⟨positional', named'⟩ := args'
    obtain ⟨hpositional, hnamed⟩ := hargs
    rcases hpositional with _ | ⟨hcallable, hrest⟩
    · exact fail _
    · exact hkernel.invoke (.value hcallable) ⟨hrest, hnamed⟩
  · have hinvoke : ∀ (kernel : Kernel) (args : Args), function.invoke kernel args =
        (do function.apply kernel (← args.bind (function.params (← MonadState.get)))) := by
      intro kernel args
      cases function <;> first | rfl | contradiction
    rw [hinvoke, hinvoke]
    refine get fun world world' hworld => ?_
    rw [hworld.functionParams]
    exact (bindArgs hargs (params_function bond world' function)).bind fun _ _ hvalues =>
      functionApply hkernel function hvalues

end Function

/-! ## Variables -/

theorem getVariable (name : String) :
    bond.Follows (Value.Alike bond) (Run.getVariable name) (Run.getVariable name) := by
  refine get fun world world' hworld => ?_
  have hfields : bond.Fields (if Run.isGlobal name then world.globals else world.frame)
      (if Run.isGlobal name then world'.globals else world'.frame) := by
    split
    next => exact hworld.globals
    next => exact hworld.frame
  rcases (hfields.get? name).cases with ⟨hnone, hnone'⟩ | ⟨value, value', hsome, hsome', halike⟩
  · rw [hnone, hnone']
    exact fail _
  · rw [hsome, hsome']
    exact pure halike

theorem setVariable (name : String) (halike : value.Alike bond value') :
    bond.Follows Eq (Run.setVariable name value) (Run.setVariable name value') := by
  refine modify fun world world' hworld => ?_
  split
  next =>
    exact
      { hworld with
        sizes := { hworld.sizes with }
        globals := hworld.globals.insert name halike }
  next =>
    exact
      { hworld with
        sizes := { hworld.sizes with }
        frame := hworld.frame.insert name halike }

theorem note (datum : Datum) : bond.Follows Eq (Run.note datum) (Run.note datum) :=
  modify fun _ _ hworld =>
    { hworld with
      sizes := { hworld.sizes with }
      traces := congrArg (Array.push · datum) hworld.traces }

theorem inFrame {α β : Type} {rel : α → β → Prop} {run : Run α} {run' : Run β}
    {frame frame' : Table String Value} (hframe : bond.Fields frame frame')
    (hrun : bond.Follows rel run run') :
    bond.Follows rel (Run.inFrame frame run) (Run.inFrame frame' run') := by
  refine get fun world world' hworld => ?_
  refine bindEq (modify fun _ _ hworld => hworld.setFrame hframe) fun _ => ?_
  refine hrun.observe.bind fun _ _ hend => ?_
  refine bindEq (modify fun _ _ hworld' => hworld'.setFrame hworld.frame) fun _ => ?_
  cases hend with
  | ok hrel => exact pure hrel
  | error fault => exact fail fault

/-! ## Expressions -/

theorem evaluate (term : Term) (havoids : bond.Asks (term.avoids "regex")) :
    bond.Follows (Value.Alike bond) (Script.evaluate term) (Script.evaluate term) := by
  cases term with
  | datum datum => exact valueOf datum
  | var name => exact getVariable name
  | bytes value => exact pure (.bytes value)
  | pattern => exact (compile _ _ _ _).bindEq fun pattern => pure (.pattern pattern)
  | callback name body =>
      exact fresh.bind fun _ _ hserial =>
        pure (.callback hserial name (Bond.permits_iff.mpr havoids))

theorem evaluateAll (terms : List Term) (havoids : bond.Asks (termsAvoid "regex" terms)) :
    bond.Follows (List.Forall₂ (Value.Alike bond)) (Script.evaluateAll terms)
      (Script.evaluateAll terms) := by
  induction terms with
  | nil => exact pure .nil
  | cons term rest ih =>
      obtain ⟨hterm, hrest⟩ := havoids.both
      exact (evaluate term hterm).bind fun _ _ hvalue =>
        (ih hrest).bind fun _ _ hvalues => pure (.cons hvalue hvalues)

theorem evaluateNamed (terms : List (String × Term)) (havoids : bond.Asks (namedAvoid "regex" terms)) :
    bond.Follows (List.Forall₂ bond.Named) (Script.evaluateNamed terms)
      (Script.evaluateNamed terms) := by
  induction terms with
  | nil => exact pure .nil
  | cons named rest ih =>
      obtain ⟨hterm, hrest⟩ := havoids.both
      exact (evaluate named.2 hterm).bind fun _ _ hvalue =>
        (ih hrest).bind fun _ _ hvalues => pure (.cons ⟨rfl, hvalue⟩ hvalues)

theorem holds : ∀ condition : Cond, bond.Asks (condition.avoids "regex") →
    bond.Follows Eq (Script.holds condition) (Script.holds condition)
  | .not condition, havoids => (holds condition havoids).bindEq fun _ => pure rfl
  | .present term, havoids => (evaluate term havoids).bind fun _ _ halike => by
      cases halike <;> exact pure rfl
  | .equal first second, havoids => by
      obtain ⟨hfirst, hsecond⟩ := havoids.both
      exact (evaluate first hfirst).bind fun _ _ hone =>
        (evaluate second hsecond).bind fun _ _ htwo => equal hone htwo

/-! ## Statements -/

theorem readField (halike : value.Alike bond value') {field : String}
    (havoids : bond.Asks (field != "regex")) :
    bond.Follows (Value.Alike bond) (Script.readField value field)
      (Script.readField value' field) := by
  have hread : bond.Follows (Value.Alike bond) (Run.attributeOf value field)
      (Run.attributeOf value' field) := by
    by_cases hnone : bond.apart = none
    · exact attributeOf halike (bne_iff_ne.mp (havoids hnone))
    · exact (attributeOf_held halike field).mono fun hheld => hheld.alike hnone
  refine hread.bind fun _ _ hcontent => ite ?_ (pure hcontent)
  refine (pairsIn hcontent).bind fun _ _ hpairs => ?_
  refine (mapM hpairs fun hpair => ?_).bind fun _ _ hlists => newList hlists
  exact newList (.cons hpair.1 (.cons hpair.2 .nil))

section Statement

variable (hkernel : kernel.Alike bond kernel')

include hkernel

theorem dropRule (halike : value.Alike bond value') (label : Datum) :
    bond.Follows (Value.Alike bond) (Script.dropRule kernel value label)
      (Script.dropRule kernel' value' label) :=
  (attributeOf halike (by decide)).bind fun _ _ hrules =>
    (valueOf label).bind fun _ _ hlabel => takeEntry hkernel hrules hlabel

theorem act (action : Action) (havoids : bond.Asks (action.avoids "regex")) :
    bond.Follows (Value.Alike bond) (Script.act kernel action) (Script.act kernel' action) := by
  cases action with
  | call function arguments named =>
      obtain ⟨harguments, hnamed⟩ := havoids.both
      refine (evaluateAll arguments harguments).bind fun _ _ hvalues => ?_
      refine (evaluateNamed named hnamed).bind fun _ _ hnamed => ?_
      split
      next function _ => exact functionInvoke hkernel function ⟨hvalues, hnamed⟩
      next => exact fail _
  | send object method arguments named =>
      obtain ⟨harguments, hnamed⟩ := havoids.both
      refine (evaluateAll arguments harguments).bind fun _ _ hvalues => ?_
      refine (evaluateNamed named hnamed).bind fun _ _ hnamed => ?_
      exact (getVariable object).bind fun _ _ hobject =>
        hkernel.invoke (.method hobject method) ⟨hvalues, hnamed⟩
  | read object field =>
      exact (getVariable object).bind fun _ _ hobject => readField hobject havoids
  | write object field term =>
      exact (getVariable object).bind fun _ _ hobject => (evaluate term havoids).bind
        fun _ _ hcontent => (setAttribute hobject field hcontent).bindEq fun _ => pure .null
  | drop object label =>
      exact (getVariable object).bind fun _ _ hobject => dropRule hkernel hobject label

theorem actInto (action : Action) (target : Option String)
    (havoids : bond.Asks (action.avoids "regex")) :
    bond.Follows (Value.Alike bond) (Script.actInto kernel action target)
      (Script.actInto kernel' action target) := by
  refine (act hkernel action havoids).bind fun _ _ hresult => ?_
  cases target with
  | none => exact pure hresult
  | some name => exact (setVariable name hresult).bindEq fun _ => pure hresult

omit hkernel in
theorem repeatBody {body body' : Run Script.Flow}
    (hbody : bond.Follows (FlowAlike bond) body body') (fuel : Nat) :
    bond.Follows (FlowAlike bond) (Script.repeatBody body fuel) (Script.repeatBody body' fuel) := by
  induction fuel with
  | zero => exact fail _
  | succ fuel ih =>
      refine hbody.bind fun _ _ hflow => ?_
      cases hflow with
      | onward => exact ih
      | left => exact pure .onward
      | gave hresult => exact pure (.gave hresult)

-- either of the two needs the kernel for the other
set_option linter.unusedSectionVars false in
mutual

theorem runAll : ∀ statements : List Stmt, bond.Asks (avoidsAll "regex" statements) →
    bond.Follows (FlowAlike bond) (Script.runAll kernel statements)
      (Script.runAll kernel' statements)
  | [], _ => pure .onward
  | statement :: rest, havoids => by
      obtain ⟨hstatement, hrest⟩ := havoids.both
      rw [Script.runAll, Script.runAll]
      refine (run statement hstatement).bind fun _ _ hflow => ?_
      cases hflow with
      | onward => exact runAll rest hrest
      | left => exact pure .left
      | gave hresult => exact pure (.gave hresult)

theorem run : ∀ statement : Stmt, bond.Asks (statement.avoids "regex") →
    bond.Follows (FlowAlike bond) (Script.run kernel statement) (Script.run kernel' statement)
  | .give result, havoids =>
      (evaluate result havoids).bind fun _ _ hresult => pure (.gave hresult)
  | .leave, _ => pure .left
  | .trace term, havoids =>
      (evaluate term havoids).bind fun _ _ halike => (picture halike).bindEq fun _ =>
        (note _).bindEq fun _ => pure .onward
  | .raise _ _, _ => fail _
  | .branch condition yes no, havoids => by
      obtain ⟨hboth, hno⟩ := havoids.both
      obtain ⟨hcondition, hyes⟩ := hboth.both
      exact (holds condition hcondition).bindEq fun _ => ite (runAll yes hyes) (runAll no hno)
  | .loop body, havoids => by
      rw [Script.run, Script.run, hkernel.fuel]
      exact repeatBody (runAll body havoids) _
  | .attempt body name handler, havoids => by
      obtain ⟨hbody, hhandler⟩ := havoids.both
      refine (runAll body hbody).observe.bind fun _ _ hend => ?_
      cases hend with
      | ok hflow => exact pure hflow
      | error fault =>
          split
          next => contradiction
          next => exact fail _
          next =>
            refine (valueOf _).bind fun _ _ hvalue => (setVariable name hvalue).bindEq fun _ => ?_
            exact runAll handler hhandler
  | .act action target, havoids =>
      (actInto hkernel action target havoids).bind fun _ _ _ => pure .onward

end

end Statement

/-! ## Calls -/

section Call

variable {values values' : List Value} {args args' : Args}

theorem fields_frameOf (hvalues : List.Forall₂ (Value.Alike bond) values values') :
    bond.Fields (Script.frameOf values) (Script.frameOf values') := by
  rcases hvalues with _ | ⟨hself, hrest⟩
  · exact .nil
  · exact .cons ⟨rfl, hself⟩ (forall₂_mapIdx hrest fun _ _ _ halike => ⟨rfl, halike⟩)

theorem callFound (pattern : Pattern) (found : Pattern.Match) (hargs : args.Alike bond args') :
    bond.Follows (Value.Alike bond) (Rulebook.callFound pattern found args)
      (Rulebook.callFound pattern found args') := by
  obtain ⟨positional, named⟩ := args
  obtain ⟨positional', named'⟩ := args'
  obtain ⟨hpositional, hnamed⟩ := hargs
  rcases hnamed with _ | ⟨_, _⟩
  · rcases hpositional with _ | ⟨hindex, _ | ⟨hother, hrest⟩⟩
    · exact groupOf pattern found (.int 0)
    · exact groupOf pattern found hindex
    · exact (mapM (.cons hindex (.cons hother hrest)) fun hindex => groupOf pattern found hindex).bind
        fun _ _ hgroups => newList hgroups
  · exact fail _

variable (hkernel : kernel.Alike bond kernel')

include hkernel

theorem callback {body : List Stmt} (hbody : bond.Asks (avoidsAll "regex" body))
    (hvalues : List.Forall₂ (Value.Alike bond) values values') :
    bond.Follows (Value.Alike bond) (Script.callback kernel body values)
      (Script.callback kernel' body values') := by
  refine (inFrame (fields_frameOf hvalues) (runAll hkernel body hbody)).bind fun _ _ hflow => ?_
  cases hflow with
  | gave hresult => exact pure hresult
  | _ => exact pure .null

theorem callNode (id : NodeId) (name : String) (hargs : args.Alike bond args') :
    bond.Follows (Value.Alike bond) (Rulebook.callNode kernel id name args)
      (Rulebook.callNode kernel' id name args') := by
  unfold Rulebook.callNode
  split
  next =>
    refine (bindArgs hargs (.cons .none (.cons .none .nil))).bind fun _ _ hvalues => ?_
    rcases hvalues with _ | ⟨hkey, _ | ⟨hvalue, _ | ⟨_, _⟩⟩⟩ <;> try exact fail _
    exact (cell id).bind fun _ _ hcell => (setItem hcell.notes.held hkey hvalue).bindEq
      fun _ => pure (.node id)
  next =>
    refine (bindArgs hargs (.cons .none .nil)).bind fun _ _ hvalues => ?_
    rcases hvalues with _ | ⟨hchild, _ | ⟨_, _⟩⟩ <;> try exact fail _
    exact (setAttribute hchild "parent" (.node id)).bindEq fun _ => (cell id).bind
      fun _ _ hcell => (append hkernel hcell.children hchild).bindEq fun _ => pure hchild
  next => exact lacks (.node id) name

theorem callMethod {one other : Nat} (hreceiver : value.Alike bond value') (name : String)
    (hargs : args.Alike bond args') :
    bond.Follows (Value.Alike bond) (callValue kernel (.method one value name) args)
      (callValue kernel' (.method other value' name) args') := by
  cases hreceiver with
  | host hid =>
      refine (host hid).bind fun host host' hhost => ?_
      rw [hhost.hostClass]
      split
      next method _ => exact hostMethod hkernel hid method hargs
      next => exact lacks (.host hid) name
  | node id => exact callNode hkernel id name hargs
  | found hserial pattern found => exact callFound pattern found hargs
  | _ => exact fail _

theorem callValue (halike : value.Alike bond value') (hargs : args.Alike bond args') :
    bond.Follows (Value.Alike bond) (Rulebook.callValue kernel value args)
      (Rulebook.callValue kernel' value' args') := by
  cases halike with
  | callback hserial name hbody =>
      obtain ⟨positional, named⟩ := args
      obtain ⟨positional', named'⟩ := args'
      obtain ⟨hpositional, hnamed⟩ := hargs
      rcases hnamed with _ | ⟨_, _⟩
      · exact callback hkernel (Bond.permits_iff.mp hbody) hpositional
      · exact fail _
  | patternRule hserial name hlabel hpattern =>
      refine (bindArgs hargs (.cons .none .nil)).bind fun _ _ hvalues => ?_
      rcases hvalues with _ | ⟨hparser, _ | ⟨_, _⟩⟩ <;> try exact fail _
      exact runPatternRule hkernel hlabel hpattern hparser
  | stamp hserial hparser hstart =>
      refine (bindArgs hargs (.cons .none .nil)).bind fun _ _ hvalues => ?_
      rcases hvalues with _ | ⟨hnode, _ | ⟨_, _⟩⟩ <;> try exact fail _
      exact stamp hkernel hparser hstart hnode
  | plugin =>
      refine (bindArgs hargs (.cons .none (.cons (.some .null) .nil))).bind fun _ _ hvalues => ?_
      rcases hvalues with _ | ⟨hhost, _ | ⟨hkind, _ | ⟨_, _⟩⟩⟩ <;> try exact fail _
      exact install hkernel hhost hkind
  | captureRule =>
      refine (bindArgs hargs (.cons .none (.cons .none (.cons .none
        (.cons (.some (.text "")) .nil))))).bind fun _ _ hvalues => ?_
      rcases hvalues with _ | ⟨hparser, _ | ⟨hlabel, _ | ⟨hmatcher, _ | ⟨hflags, _ | ⟨_, _⟩⟩⟩⟩⟩ <;>
        try exact fail _
      exact capture hkernel hparser hlabel hmatcher hflags
  | forward => exact forwardCapture hkernel hargs
  | bound _ hreceiver hcallable =>
      exact hkernel.invoke (.value hcallable)
        ⟨.cons (.host hreceiver) hargs.positional, hargs.named⟩
  | method _ hreceiver name => exact callMethod hkernel hreceiver name hargs
  | _ => exact fail _

/-- The registry that is kept out of sight cannot be called. -/
theorem callHeld (hheld : value.Held bond value') (hargs : args.Alike bond args') :
    bond.Follows (Value.Alike bond) (Rulebook.callValue kernel value args)
      (Rulebook.callValue kernel' value' args') := by
  rcases hheld with halike | ⟨_, rfl, rfl⟩
  · exact callValue hkernel halike hargs
  · exact fail _

end Call

end Bond.Follows

/-- Calls that are alike go the same way. -/
theorem alike_ofDepth (bond : Bond) (rounds depth : Nat) :
    (Kernel.ofDepth rounds depth).Alike bond (Kernel.ofDepth rounds depth) where
  fuel := rfl
  invoke := by
    induction depth with
    | zero => exact fun _ _ => .fail _
    | succ depth ih =>
        intro callee callee' args args' hcallee hargs
        have hkernel : (Kernel.ofDepth rounds depth).Alike bond (Kernel.ofDepth rounds depth) :=
          ⟨rfl, ih⟩
        cases hcallee with
        | value halike => exact .callValue hkernel halike hargs
        | method halike name =>
            exact (Bond.Follows.attributeOf_held halike name).bind fun _ _ hheld =>
              .callHeld hkernel hheld hargs

end Rulebook
