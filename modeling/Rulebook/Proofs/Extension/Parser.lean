import Rulebook.Function
import Rulebook.Proofs.Extension.Attribute

/-!
# Methods and functions with more rules in a table

Given kernels by which calls go as they go without the added rules, so do the methods of parsers
and facades, capturing and installing, and the functions of scripts. Only three methods of the
parser itself look into its table: `set`, which nothing may call, `get`, which finds a rule under a
label that was there before, and a step, which tries the added rules after the others and so never
comes to them unless it ran out of those.
-/

namespace Rulebook

open Run (wasCutOff)

variable {ext : Extension} {id : HostId}

/-! ## Parameters -/

theorem paramsIgnore_parserMethod (method : ParserMethod) : ParamsIgnore id method.params := by
  cases method <;>
    repeat' first
      | exact .nil
      | refine .needed _ ?_
      | exact .optional _ trivial .nil

theorem paramsIgnore_facadeMethod (method : FacadeMethod) : ParamsIgnore id method.params := by
  cases method <;>
    repeat' first
      | exact .nil
      | refine .needed _ ?_

namespace Extension

/-- Under a key that was in the table there is what there was. -/
theorem get?_wide {key : Key} (hkey : key ∈ ext.rules.keys) :
    ext.wide.get? key = ext.rules.get? key := by
  obtain ⟨entry, hentry⟩ := Option.isSome_iff_exists.mp (lookup_isSome.mpr hkey)
  rw [Table.get?, Table.get?, wide, List.lookup_append, hentry, Option.some_or]

/-- What is asked of a call of a method of the parser itself: nothing is registered, only rules that
were in the table are looked up, and a step does not ask where it is, as it would if it had run out
of rules. -/
structure Permits (ext : Extension) (kernel : Kernel) (method : ParserMethod)
    (values : List Value) : Prop where
  set : method ≠ .set
  get : method = .get → ∀ label ∈ values, ∀ key ∈ label.key?, key ∈ ext.rules.keys
  step : method = .step → ∀ world,
    wasCutOff ((kernel.sendHost ext.id "location" []).outcome world).1 = true

namespace Follows

variable {value label node start source flags : Value}

/-! ## Patterns -/

theorem compile (dialect : Dialect) (source : String) (binary : Bool) (given : Flags) :
    ext.Keeps (fun _ => True) (Run.compile dialect source binary given) := by
  unfold Run.compile
  split
  next => exact pure trivial
  all_goals exact fail _

theorem flagLetters (hflags : flags.Ignores ext.id) :
    ext.Keeps (fun _ => True) (Rulebook.flagLetters flags) := by
  refine (valuesIn hflags).bind fun values hvalues => ?_
  refine (@mapM ext _ (fun _ => True) _ _ _ _ hvalues fun {value} _ => ?_).bind
    fun _ _ => pure trivial
  refine (keyOf value).bind fun key _ => ?_
  split <;> exact pure trivial

theorem compilePattern (source : Value) (hflags : flags.Ignores ext.id) :
    ext.Keeps (fun _ => True) (Rulebook.compilePattern source flags) := by
  unfold Rulebook.compilePattern
  split
  next => exact pure trivial
  next =>
    refine (flagLetters hflags).bind fun _ _ => ?_
    split
    next => exact compile _ _ _ _
    next => exact compile _ _ _ _
    next => exact fail _

/-! ## Methods of parsers -/

section Parser

variable {kernel kernel' : Kernel} {rule val made : Value} (number : HostId)

theorem reset (hvalue : value.Ignores ext.id) :
    ext.Keeps (fun _ => True) (Parser.reset number value) := by
  refine (newNode (.text "root") (.text "") .null).bind fun root _ => ?_
  refine (newStack (.cons (.node root) .nil)).bind fun stack hstack => ?_
  refine changeHost number (fun hhost => ?_) (fun _ _ => rfl) fun _ _ _ _ => rfl
  exact { hhost with
    input := hvalue.some, root := (Value.Ignores.node root).some, stack := hstack.some }

theorem location : ext.Keeps (Value.Ignores ext.id) (Parser.location number) :=
  (cursor number "_line").bind fun cursor _ => locationOf cursor

/-- Only the parser itself has its table of rules in the place of that. -/
theorem ruleTable :
    ext.Keeps
      (fun rules => rules.Ignores ext.id ∨ number = ext.id ∧ rules = .record (.rules ext.id))
      (Run.hostPart number "rules") := by
  refine host number (fun _ _ _ => rfl) fun host hhost => ?_
  split
  next value hvalue => exact pure (hhost.rules value hvalue)
  next => exact lacks _ _

theorem setRule (hother : number ≠ ext.id) (hlabel : label.Ignores ext.id)
    (hrule : rule.Ignores ext.id) :
    ext.Keeps (fun _ => True) (Parser.setRule number label rule) := by
  refine (ruleTable number).bind fun rules hrules => ?_
  exact setItem ((hrules.resolve_right fun hown => hother hown.1).heldUnder _) hlabel hrule

/-- Whoever finds the same in either table goes on in the same way. -/
theorem readRules {β : Type} {after : β → Prop} {next : Record → Run β}
    (hsame : next ext.wide = next ext.rules)
    (hnext : ext.rules.Ignores ext.id → ext.Keeps after (next ext.rules)) :
    ext.Keeps after (Run.record (.rules ext.id) >>= next) := by
  intro world world' hbeside
  obtain ⟨patterns, notices, rfl⟩ := hbeside.widened
  have hrules : world.record (.rules ext.id) = ext.rules := hbeside.fits.rules
  have hown : ext.rules.Ignores ext.id := hrules ▸ hbeside.fits.ignores.record (by simp)
  rw [Run.outcome_bind, Run.outcome_bind, Run.outcome_record, Run.outcome_record,
    record_widen_rules patterns notices hbeside.fits.present, hrules]
  dsimp only
  rw [hsame]
  exact hnext hown _ _ hbeside

/-- What the table has under a label, if the label names a rule. -/
theorem getItem_rules (hlabel : label.Ignores ext.id)
    (hknown : ∀ key ∈ label.key?, key ∈ ext.rules.keys) :
    ext.Keeps (Value.Ignores ext.id) (Run.getItem (.record (.rules ext.id)) label) := by
  rw [Run.getItem]
  cases hkey : label.key? with
  | none =>
      have hfail : Run.keyOf label = Run.fail .wrongType := by rw [Run.keyOf, hkey]
      rw [hfail]
      exact failBind _
  | some key =>
      have hfound : Run.keyOf label = Pure.pure key := by rw [Run.keyOf, hkey]
      rw [hfound, pure_bind]
      refine readRules (by rw [get?_wide (hknown key hkey)]) fun hown => ?_
      cases hentry : ext.rules.get? key with
      | none => exact (plainText hlabel).bind fun _ _ => fail _
      | some entry => exact pure (hown.get? hentry).value

theorem getRule (hlabel : label.Ignores ext.id)
    (hknown : number = ext.id → ∀ key ∈ label.key?, key ∈ ext.rules.keys) :
    ext.Keeps (Value.Ignores ext.id) (Parser.getRule number label) := by
  refine (ruleTable number).bind fun rules hrules => ?_
  have hitem : ext.Keeps (Value.Ignores ext.id) (Run.getItem rules label) := by
    rcases hrules with hrules | ⟨hself, rfl⟩
    · exact getItem hrules hlabel
    · exact getItem_rules hlabel (hknown hself)
  refine hitem.observe (fun _ => rfl) (fun _ hrule => pure hrule) fun fault => ?_
  split
  next => contradiction
  next => exact (plainText hlabel).bind fun _ _ => fail _
  next => exact fail _

theorem input : ext.Keeps (Value.Ignores ext.id) (Run.hostPart number "input") :=
  hostPart_ignores number (by decide) (by decide)

theorem openNodes : ext.Keeps (Value.Ignores ext.id) (Run.hostPart number "stack") :=
  hostPart_ignores number (by decide) (by decide)

theorem charsLeft (binary : Bool) :
    ext.Keeps (fun _ => True) (Parser.charsLeft number binary) := by
  refine (input number).bind fun input _ => (cursor number "_i").bind fun cursor _ => ?_
  split
  next => exact pure trivial
  next => exact pure trivial
  next => exact (restOf _ _).bind fun _ _ => fail _

theorem advance (hconsumed : value.Ignores ext.id) :
    ext.Keeps (fun _ => True) (Parser.advance number value) := by
  unfold Parser.advance
  split
  next =>
    refine (cursor number _).bind fun cursor _ => ?_
    exact changeHost number (fun hhost => { hhost with }) (fun _ _ => rfl) fun _ _ _ _ => rfl
  next => exact fail _
  next => exact (lengthOf hconsumed).bind fun _ _ => lacks _ _

theorem prev : ext.Keeps (Value.Ignores ext.id) (Parser.prev number) :=
  (openNodes number).bind fun _ hstack => getItem hstack (.int (-1))

theorem snippet : ext.Keeps (fun _ => True) (Parser.snippet number) := by
  refine (input number).bind fun input _ => (cursor number "_i").bind fun cursor _ => ?_
  split
  next => exact pure trivial
  next => exact fail _
  next => exact lacks _ _

theorem pointer (hvalue : value.Ignores ext.id) :
    ext.Keeps (fun _ => True) (Parser.pointer number value) := by
  refine (attributeOf_ignores hvalue (by decide) (by decide)).bind fun line hline => ?_
  refine (plainText hline).bind fun _ _ => ?_
  refine (attributeOf_ignores hvalue (by decide) (by decide)).bind fun column hcolumn => ?_
  exact (plainText hcolumn).bind fun _ _ => (snippet number).bind fun _ _ => pure trivial

theorem itemReached (hvalue : value.Ignores ext.id) (place : Nat) :
    ext.Keeps (Value.Ignores ext.id) (Parser.itemReached value place) := by
  unfold Parser.itemReached
  split
  next =>
    split
    next => exact pure trivial
    next => exact fail _
  next => exact getItem hvalue (.int place)

theorem unclosed (hvalue : value.Ignores ext.id) :
    ext.Keeps (Value.Ignores ext.id) (Parser.unclosed value) := by
  refine (getItem hvalue (.int (-1))).bind fun top htop => ?_
  refine (attributeOf_ignores htop (by decide) (by decide)).bind fun label hlabel => ?_
  exact (plainText hlabel).bind fun _ _ => fail _

variable (hcalls : ext.Calls kernel kernel')

include hcalls

theorem askLocation :
    ext.Follows (Value.Ignores ext.id) (Parser.askLocation kernel number)
      (Parser.askLocation kernel' number) :=
  hcalls.sendHost number "location" .nil

theorem position :
    ext.Follows (Value.Ignores ext.id) (Parser.position kernel number)
      (Parser.position kernel' number) :=
  (askLocation number hcalls).bind fun _ hstart => fresh.bind fun _ _ => pure hstart

theorem stamp (hstart : start.Ignores ext.id) (hnode : node.Ignores ext.id) :
    ext.Follows (Value.Ignores ext.id) (Parser.stamp kernel number start node)
      (Parser.stamp kernel' number start node) := by
  refine (askLocation number hcalls).bind fun stop hstop => fresh.bind fun serial _ => ?_
  have hspan : (Value.span serial start stop).Ignores ext.id := ⟨hstart, hstop⟩
  exact (setAttribute node "position" hspan).bind fun _ _ => pure hnode

theorem matchPattern (source : Value) :
    ext.Follows (Value.Ignores ext.id) (Parser.matchPattern kernel number source)
      (Parser.matchPattern kernel' number source) := by
  refine (compilePattern source (.text "")).bind fun pattern _ => ?_
  refine (charsLeft number _).bind fun left _ => ?_
  split
  next => exact pure .null
  next found _ =>
    refine fresh.bind fun serial _ => ?_
    have htext : AllIgnore ext.id [pattern.valueOf found.text] :=
      .cons (Value.ignores_valueOf pattern found.text) .nil
    exact (hcalls.sendHost number "_advance_text" htext).bind fun _ _ => pure trivial

theorem parserNode (hmade : made.Ignores ext.id) (hlabel : label.Ignores ext.id)
    (hval : val.Ignores ext.id) :
    ext.Follows (Value.Ignores ext.id) (Parser.newNode kernel made label val)
      (Parser.newNode kernel' made label val) :=
  (newNode hlabel hval .null).bind fun node _ => hcalls.call hmade (.cons (.node node) .nil)

theorem attachLoose (hnode : node.Ignores ext.id) :
    ext.Follows (fun _ => True) (Parser.attachLoose kernel number node)
      (Parser.attachLoose kernel' number node) := by
  refine (attributeOf_ignores hnode (by decide) (by decide)).bind fun parent _ => ?_
  split
  next =>
    refine (hcalls.sendHost number "prev" .nil).bind fun innermost hinnermost => ?_
    exact (hcalls.send hinnermost "add_node" (.cons hnode .nil)).bind fun _ _ => pure trivial
  next => exact pure trivial

theorem push (hnode : node.Ignores ext.id) :
    ext.Follows (Value.Ignores ext.id) (Parser.push kernel number node)
      (Parser.push kernel' number node) := by
  refine (attachLoose number hcalls hnode).bind fun _ _ => ?_
  refine (openNodes number).bind fun stack hstack => ?_
  exact (append hcalls hstack hnode).bind fun _ _ => pure hnode

theorem noOpenNode (hlabel : label.Ignores ext.id) :
    ext.Follows (Value.Ignores ext.id) (Parser.noOpenNode kernel number label)
      (Parser.noOpenNode kernel' number label) := by
  refine (askLocation number hcalls).bind fun location hlocation => ?_
  refine (plainText hlabel).bind fun _ _ => ?_
  exact (pointer number hlocation).bind fun _ _ => fail _

theorem pop (hlabel : label.Ignores ext.id) :
    ext.Follows (Value.Ignores ext.id) (Parser.pop kernel number label)
      (Parser.pop kernel' number label) := by
  refine (openNodes number).bind fun stack hstack => ?_
  refine (lengthOf hstack).bind fun _ _ => ite (noOpenNode number hcalls hlabel) ?_
  refine (getItem hstack (.int (-1))).bind fun top htop => ?_
  refine (attributeOf_ignores htop (by decide) (by decide)).bind fun other hother => ?_
  exact (equal hother hlabel).bind fun _ _ =>
    ite (takeLast stack) (noOpenNode number hcalls hlabel)

theorem apply (hlabel : label.Ignores ext.id) :
    ext.Follows (Value.Ignores ext.id) (Parser.apply kernel number label)
      (Parser.apply kernel' number label) := by
  refine (hcalls.sendHost number "get" (.cons hlabel .nil)).bind fun rule hrule => ?_
  refine (hcalls.call hrule (.cons (.host number) .nil)).bind fun result hresult => ?_
  split
  next => exact (attachLoose number hcalls hresult).bind fun _ _ => pure hresult
  next => exact pure .null

/-- Rules are tried in the same way, and what comes after the last of them goes on in the same way
if it does so after the rules that are added have been tried. -/
theorem tryRules {labels more : List Value} {next next' : Bool → Run Unit}
    (hlabels : AllIgnore ext.id labels)
    (hdone : ext.Follows (fun _ => True) (next true) (next' true))
    (hend : ext.Follows (fun _ => True) (next false)
      (Parser.tryRules kernel' number more >>= next')) :
    ext.Follows (fun _ => True) (Parser.tryRules kernel number labels >>= next)
      (Parser.tryRules kernel' number (labels ++ more) >>= next') := by
  -- the added rules stay behind all through, so that the induction leaves them to `hend`
  induction labels with
  | nil => exact hend
  | cons label rest ih =>
      obtain ⟨hlabel, hrest⟩ := List.forall_mem_cons.mp hlabels
      rw [List.cons_append, Parser.tryRules, Parser.tryRules]
      simp only [bind_assoc]
      refine (cursor number "_i").bind fun start _ => ?_
      refine (hcalls.sendHost number "apply" (.cons hlabel .nil)).bind fun result _ => ?_
      refine (cursor number "_i").bind fun stop _ => ?_
      by_cases hmoved : start.offset < stop.offset
      · rw [if_pos hmoved, if_pos hmoved, pure_bind, pure_bind]
        exact hdone
      · rw [if_neg hmoved, if_neg hmoved]
        split
        next => exact ih hrest
        next =>
          rw [bind_assoc, bind_assoc]
          exact (plainText hlabel).bind fun _ _ => failBind _

theorem complain :
    ext.Follows (fun _ => True) (Parser.complain kernel number)
      (Parser.complain kernel' number) := by
  refine (askLocation number hcalls).bind fun location hlocation => ?_
  refine (input number).bind fun input hinput => (cursor number "_i").bind fun _ _ => ?_
  refine (itemReached hinput _).bind fun found hfound => (spell hfound).bind fun _ _ => ?_
  exact (pointer number hlocation).bind fun _ _ => fail _

/-- A step that does not run out of rules does not come to those that were added. -/
theorem step (hout : number = ext.id → ∀ world,
      wasCutOff ((kernel.sendHost ext.id "location" []).outcome world).1 = true) :
    ext.Follows (fun _ => True) (Parser.step kernel number) (Parser.step kernel' number) := by
  let next (kernel : Kernel) (moved : Bool) : Run Unit :=
    if moved then Pure.pure () else Parser.complain kernel number
  have hdone : ext.Follows (fun _ => True) (next kernel true) (next kernel' true) := pure trivial
  refine (ruleTable number).bind fun rules hrules => ?_
  rcases hrules with hrules | ⟨hself, rfl⟩
  · refine (valuesIn hrules).bind fun labels hlabels => ?_
    have hend : ext.Follows (fun _ => True) (next kernel false)
        (Parser.tryRules kernel' number [] >>= next kernel') := complain number hcalls
    have htried := tryRules number hcalls hlabels hdone hend
    rwa [List.append_nil] at htried
  · -- the labels of the rules that are added come after the others
    intro world world' hbeside
    obtain ⟨patterns, notices, rfl⟩ := hbeside.widened
    have hrules : world.record (.rules ext.id) = ext.rules := hbeside.fits.rules
    have hwide := record_widen_rules patterns notices hbeside.fits.present
    have hown : ext.rules.Ignores ext.id := hrules ▸ hbeside.fits.ignores.record (by simp)
    have hlabels : AllIgnore ext.id (ext.rules.values.map Entry.name) :=
      List.forall_mem_map.mpr fun entry hentry => (hown.values entry hentry).name
    have hvalues : ∀ world, (Run.valuesIn (.record (.rules ext.id))).outcome world =
        (.ok ((world.record (.rules ext.id)).values.map Entry.name), world) := fun _ => rfl
    have hleft := hvalues world
    have hright := hvalues (ext.widen patterns notices world)
    rw [hrules] at hleft
    rw [hwide, wide, Table.values, List.map_append, List.map_append] at hright
    -- the complaint begins with the question where the parser is, and that is cut off
    have hcut : ∀ {run' : Run Unit}, ext.Follows (fun _ => True) (next kernel false) run' :=
      fun world _ _ => .inl (wasCutOff_bind (hself ▸ hout hself world))
    rw [Run.outcome_bind_ok hleft, Run.outcome_bind_ok hright]
    exact tryRules number hcalls hlabels hdone hcut _ _ hbeside

theorem stepAll (fuel : Nat) :
    ext.Follows (fun _ => True) (Parser.stepAll kernel number fuel)
      (Parser.stepAll kernel' number fuel) := by
  induction fuel with
  | zero => exact fail _
  | succ fuel ih =>
      refine (cursor number "_i").bind fun _ _ => (input number).bind fun input hinput => ?_
      refine (lengthOf hinput).bind fun _ _ => ite ?_ (pure trivial)
      exact (hcalls.sendHost number "_step" .nil).bind fun _ _ => ih

theorem parse (hvalue : value.Ignores ext.id) :
    ext.Follows (Value.Ignores ext.id) (Parser.parse kernel number value)
      (Parser.parse kernel' number value) := by
  refine (hcalls.sendHost number "reset" (.cons hvalue .nil)).bind fun _ _ => ?_
  rw [hcalls.fuel]
  refine (stepAll number hcalls _).bind fun _ _ => (openNodes number).bind fun stack hstack => ?_
  refine (lengthOf hstack).bind fun _ _ => ite (unclosed hstack) ?_
  exact hostPart_ignores number (by decide) (by decide)

omit hcalls in
theorem defineMember (name : Value) (hvalue : value.Ignores ext.id) :
    ext.Keeps (Value.Ignores ext.id) (Rulebook.defineMember number name value) := by
  unfold Rulebook.defineMember
  refine ite (failBind _) ?_
  split
  next name =>
    refine fresh.bind fun serial _ => ?_
    have hbound : (Value.bound serial number value).Ignores ext.id := hvalue
    exact (setAttribute (.host number) name hbound).bind fun _ _ => pure trivial
  next => exact fail _

theorem usePlugin (hvalue : value.Ignores ext.id) :
    ext.Follows (Value.Ignores ext.id) (Rulebook.usePlugin kernel number value)
      (Rulebook.usePlugin kernel' number value) :=
  (hcalls.call hvalue (.cons (.host number) .nil)).bind fun _ _ => pure trivial

theorem parserMethod (method : ParserMethod) {values : List Value}
    (hvalues : AllIgnore ext.id values)
    (hpermits : number = ext.id → ext.Permits kernel method values) :
    ext.Follows (Value.Ignores ext.id) (method.run kernel number values)
      (method.run kernel' number values) := by
  unfold ParserMethod.run
  split
  next => exact (reset number (hvalues _ List.mem_cons_self)).bind fun _ _ => pure trivial
  next => exact location number
  next name callable =>
    exact defineMember number name (hvalues callable (List.mem_cons_of_mem _ List.mem_cons_self))
  next => exact usePlugin number hcalls (hvalues _ List.mem_cons_self)
  next label rule =>
    have hother : number ≠ ext.id := fun hself => (hpermits hself).set rfl
    have hrule := hvalues rule (List.mem_cons_of_mem _ List.mem_cons_self)
    exact (setRule number hother (hvalues label List.mem_cons_self) hrule).bind
      fun _ _ => pure trivial
  next label =>
    exact getRule number (hvalues label List.mem_cons_self)
      fun hself => (hpermits hself).get rfl label List.mem_cons_self
  next => exact position number hcalls
  next => exact matchPattern number hcalls _
  next stamp label val =>
    obtain ⟨hstamp, hrest⟩ := List.forall_mem_cons.mp hvalues
    obtain ⟨hlabel, hval⟩ := List.forall_mem_cons.mp hrest
    exact parserNode hcalls hstamp hlabel (hval val List.mem_cons_self)
  next => exact prev number
  next => exact push number hcalls (hvalues _ List.mem_cons_self)
  next => exact pop number hcalls (hvalues _ List.mem_cons_self)
  next => exact apply number hcalls (hvalues _ List.mem_cons_self)
  next => exact parse number hcalls (hvalues _ List.mem_cons_self)
  next =>
    exact (step number hcalls fun hself => (hpermits hself).step rfl).bind fun _ _ => pure trivial
  next => exact (advance number (hvalues _ List.mem_cons_self)).bind fun _ _ => pure trivial
  next => exact fail _

theorem facadeMethod (method : FacadeMethod) {values : List Value}
    (hvalues : AllIgnore ext.id values) :
    ext.Follows (Value.Ignores ext.id) (method.run kernel number values)
      (method.run kernel' number values) := by
  unfold FacadeMethod.run
  split
  next name callable =>
    exact defineMember number name (hvalues callable (List.mem_cons_of_mem _ List.mem_cons_self))
  next => exact usePlugin number hcalls (hvalues _ List.mem_cons_self)
  next =>
    refine (attributeOf_ignores (.host number) (by decide) (by decide)).bind
      fun nested hnested => ?_
    exact hcalls.send hnested "parse" hvalues
  next => exact fail _

theorem hostMethod (method : HostMethod) {args : Args} (hargs : args.Ignores ext.id)
    (hpermits : number = ext.id → ∀ own values, method = .parser own →
      args.bind? own.params = some values → ext.Permits kernel own values) :
    ext.Follows (Value.Ignores ext.id) (method.run kernel number args)
      (method.run kernel' number args) := by
  cases method with
  | parser method =>
      rw [HostMethod.run, HostMethod.run, Args.bind]
      cases hvalues : args.bind? method.params with
      | none => exact failBind _
      | some values =>
          rw [pure_bind, pure_bind]
          have hall := hargs.bind? (paramsIgnore_parserMethod method) hvalues
          exact parserMethod number hcalls method hall
            fun hself => hpermits hself method values rfl hvalues
  | facade method =>
      exact (bindArgs hargs (paramsIgnore_facadeMethod method)).bind fun values hvalues =>
        facadeMethod number hcalls method hvalues

end Parser

/-! ## New hosts -/

theorem copyOptions (hvalue : value.Ignores ext.id) :
    ext.Keeps (Record.Ignores ext.id) (Run.copyOptions value) :=
  (isSet hvalue).bind fun _ _ => ite (recordFrom hvalue) (pure .empty)

theorem newParser (hostClass : HostClass) (hvalue : value.Ignores ext.id) :
    ext.Keeps (fun number => number ≠ ext.id) (Run.newParser hostClass value) := by
  refine (copyOptions hvalue).bind fun options hoptions => ?_
  refine (newHost fun number hother => ?_).bind fun number hother => ?_
  · have hrules : (Value.record (.rules number)).Ignores ext.id :=
      ⟨fun heq => hother (RecordRef.rules.inj heq), by simp⟩
    have hpatterns : (Value.record (.patterns number)).Ignores ext.id :=
      ⟨by simp, fun heq => hother (RecordRef.patterns.inj heq)⟩
    exact { Host.Ignores.bare hostClass with
      options := (Value.Ignores.options number).some, ownOptions := hoptions
      rules := fun other hsome => .inl (hrules.some other hsome)
      patterns := fun other hsome => .inl (hpatterns.some other hsome) }
  · exact (reset number (.text "")).bind fun _ _ => pure hother

theorem newFacade (hostClass : HostClass) (hvalue : value.Ignores ext.id) :
    ext.Keeps (fun number => number ≠ ext.id) (Run.newFacade hostClass value) := by
  refine (copyOptions hvalue).bind fun options hoptions => ?_
  refine (newHost fun number hother => ?_).bind fun number hother => ?_
  · exact { Host.Ignores.bare hostClass with
      options := (Value.Ignores.options number).some, ownOptions := hoptions }
  · refine (newParser .parser (.options number)).bind fun nested hnested => ?_
    refine bind (changeHost number (fun hhost => ?_) (fun _ _ => rfl) fun _ _ _ _ => rfl)
      fun _ _ => pure hother
    exact { hhost with nested := (Value.Ignores.host nested).some }

theorem newOfClass (hostClass : HostClass) (hvalue : value.Ignores ext.id) :
    ext.Keeps (fun number => number ≠ ext.id) (Run.newOfClass hostClass value) := by
  cases hostClass with
  | parser | subParser | parserFirst => exact newParser _ hvalue
  | facade | subFacade | facadeFirst => exact newFacade _ hvalue
  | thing =>
      rw [Run.newOfClass]
      exact newHost fun number _ => .bare .thing

/-! ## Capturing and installing -/

section Capture

variable {kernel kernel' : Kernel} {matcher parser expected word : Value}

theorem makePatternRule (hlabel : label.Ignores ext.id) (hvalue : value.Ignores ext.id) :
    ext.Keeps (Value.Ignores ext.id) (Rulebook.makePatternRule label value) :=
  (plainText hlabel).bind fun _ _ => fresh.bind fun _ _ => pure ⟨hlabel, hvalue⟩

theorem resolveKind (value : Value) (hexpected : expected.Ignores ext.id) :
    ext.Keeps (fun _ => True) (Rulebook.resolveKind value expected) := by
  refine get fun world patterns notices hfits => ?_
  rw [kindsOf_widen]
  split
  next => exact fail _
  next kind =>
    split
    next => exact pure trivial
    next other => exact ite (pure trivial) (fail _)
    next =>
      refine (attributeOf_ignores hexpected (by decide) (by decide)).bind fun word hword => ?_
      exact (plainText hword).bind fun _ _ => fail _
  next => exact fail _

variable (hcalls : ext.Calls kernel kernel')

include hcalls

theorem runPatternRule (hlabel : label.Ignores ext.id) (hvalue : value.Ignores ext.id)
    (hparser : parser.Ignores ext.id) :
    ext.Follows (Value.Ignores ext.id) (Rulebook.runPatternRule kernel label value parser)
      (Rulebook.runPatternRule kernel' label value parser) := by
  have hwhole : ∀ {found : Value}, found.Ignores ext.id →
      ext.Follows (Value.Ignores ext.id) (kernel.send found "group" [.int 0])
        (kernel'.send found "group" [.int 0]) :=
    fun hfound => hcalls.send hfound "group" (.cons (.int 0) .nil)
  refine (hcalls.send hparser "position" .nil).bind fun stamp hstamp => ?_
  refine (hcalls.send hparser "match" (.cons hvalue .nil)).bind fun found hfound => ?_
  split
  next => exact pure .null
  next =>
    refine (hwhole hfound).bind fun text htext => (isSet htext).bind fun _ _ =>
      ite ?_ (pure .null)
    refine (hwhole hfound).bind fun val hval => ?_
    refine (hcalls.send hparser "node"
      (.cons hstamp (.cons hlabel (.cons hval .nil)))).bind fun node hnode => ?_
    exact (hcalls.send hnode "define" (.cons (.text "match") (.cons hfound .nil))).bind
      fun _ _ => pure hnode

theorem captureCallable (hparser : parser.Ignores ext.id) (name : String)
    (hmatcher : matcher.Ignores ext.id) (hflags : flags.Ignores ext.id) :
    ext.Follows (Value.Ignores ext.id) (Rulebook.captureCallable kernel parser name matcher flags)
      (Rulebook.captureCallable kernel' parser name matcher flags) := by
  refine (isSet hflags).bind fun _ _ => ite (failBind _) ?_
  exact (notify _).bind fun _ _ =>
    hcalls.send hparser "set" (.cons (.text name) (.cons hmatcher .nil))

theorem capturePattern (hparser : parser.Ignores ext.id) (name : String) (matcher : Value)
    (hflags : flags.Ignores ext.id) :
    ext.Follows (Value.Ignores ext.id) (Rulebook.capturePattern kernel parser name matcher flags)
      (Rulebook.capturePattern kernel' parser name matcher flags) := by
  let enter (kernel : Kernel) : Run Value := do
    let pattern ← Rulebook.compilePattern matcher flags
    Run.setItem (← Run.attributeOf parser "regex") (.text name) (.pattern pattern)
    Run.notify (.patternRule name (Text.quoted pattern.source))
    let rule ← Rulebook.makePatternRule (.text name) (.pattern pattern)
    kernel.send parser "set" [.text name, rule]
  have henter : ext.Follows (Value.Ignores ext.id) (enter kernel) (enter kernel') := by
    refine (compilePattern matcher hflags).bind fun pattern _ => ?_
    refine (attributeOf hparser "regex").bind fun registry hregistry => ?_
    refine (setItem hregistry (.text name) (.pattern pattern)).bind fun _ _ => ?_
    refine (notify _).bind fun _ _ => ?_
    refine (makePatternRule (.text name) (.pattern pattern)).bind fun rule hrule => ?_
    exact hcalls.send hparser "set" (.cons (.text name) (.cons hrule .nil))
  unfold Rulebook.capturePattern
  refine ite ?_ ?_
  · refine get fun world patterns notices hfits => ?_
    rw [className_widen]
    exact failBind _
  · refine (isSet hflags).bind fun set _ => ?_
    split
    next => exact fail _
    next => exact henter

theorem capture (hparser : parser.Ignores ext.id) (hlabel : label.Ignores ext.id)
    (hmatcher : matcher.Ignores ext.id) (hflags : flags.Ignores ext.id) :
    ext.Follows (Value.Ignores ext.id) (Rulebook.capture kernel parser label matcher flags)
      (Rulebook.capture kernel' parser label matcher flags) := by
  refine (isSet hlabel).bind fun set _ => ?_
  split
  next name =>
    exact ite (captureCallable hcalls hparser name hmatcher hflags)
      (capturePattern hcalls hparser name matcher hflags)
  next => exact (spell hlabel).bind fun _ _ => fail _

theorem forwardCapture {args : Args} (hargs : args.Ignores ext.id) :
    ext.Follows (Value.Ignores ext.id) (Rulebook.forwardCapture kernel args)
      (Rulebook.forwardCapture kernel' args) := by
  unfold Rulebook.forwardCapture
  split
  next => exact fail _
  next facade rest hpositional =>
    have hvalues := hargs.positional
    rw [hpositional] at hvalues
    obtain ⟨hfacade, hrest⟩ := List.forall_mem_cons.mp hvalues
    exact (attributeOf_ignores hfacade (by decide) (by decide)).bind fun nested hnested =>
      hcalls.invoke hnested ⟨hrest, hargs.named⟩

theorem install (hvalue : value.Ignores ext.id) (hexpected : expected.Ignores ext.id) :
    ext.Follows (Value.Ignores ext.id) (Rulebook.install kernel value expected)
      (Rulebook.install kernel' value expected) := by
  have hdone : ∀ kind, ext.Keeps (Value.Ignores ext.id)
      (do Run.notify (.installed kind); return .null) := fun kind =>
    (notify _).bind fun _ _ => pure .null
  have hdefines : ∀ {host callable : Value}, host.Ignores ext.id → callable.Ignores ext.id →
      ext.Follows (Value.Ignores ext.id) (kernel.send host "define" [.text "capture", callable])
        (kernel'.send host "define" [.text "capture", callable]) :=
    fun hhost hcallable =>
      hcalls.send hhost "define" (.cons (.text "capture") (.cons hcallable .nil))
  refine (resolveKind value hexpected).bind fun kind _ => ?_
  cases kind with
  | facade =>
      refine (attributeOf_ignores hvalue (by decide) (by decide)).bind fun nested hnested => ?_
      refine (hdefines hnested .captureRule).bind fun _ _ => ?_
      exact (hdefines hvalue .forward).bind fun _ _ => hdone .facade
  | parser => exact (hdefines hvalue .captureRule).bind fun _ _ => hdone .parser

end Capture

/-! ## Functions -/

section Functions

variable {kernel kernel' : Kernel} {word place : Value}

theorem kindOf (hword : word.Ignores ext.id) :
    ext.Keeps (fun _ => True) (Function.kindOf word) := by
  unfold Function.kindOf
  split
  next => exact pure trivial
  next => exact pure trivial
  next => exact pure trivial
  next => exact (spell hword).bind fun _ _ => fail _

theorem kindOrNull (hword : word.Ignores ext.id) :
    ext.Keeps (Value.Ignores ext.id) (Function.kindOrNull word) := by
  unfold Function.kindOrNull
  split
  next => exact pure .null
  next => exact (kindOf hword).bind fun _ _ => pure trivial

theorem placeIn (length standard : Nat) (place : Value) :
    ext.Keeps (fun _ => True) (Function.placeIn length standard place) := by
  unfold Function.placeIn
  split
  next => exact pure trivial
  next => exact pure trivial
  next => exact fail _

theorem boundsAround (source place : Value) :
    ext.Keeps (fun _ => True) (Function.boundsAround source place) := by
  unfold Function.boundsAround
  split
  next =>
    exact (placeIn _ _ place).bind fun _ _ => (placeIn _ _ place).bind fun _ _ => pure trivial
  next => exact fail _
  next => exact lacks _ _

theorem snippetAt (source place : Value) :
    ext.Keeps (Value.Ignores ext.id) (Function.snippetAt source place) := by
  refine (boundsAround source place).bind fun bounds _ => ?_
  split
  split
  next => exact ite (pure trivial) (fail _)
  next => exact fail _

theorem paramsIgnore_function (world : World) (function : Function) :
    ParamsIgnore ext.id (function.params world) := by
  unfold Function.params
  split <;> try unfold Function.nodeParams captureParams
  all_goals
    repeat' first
      | exact .nil
      | refine .needed _ ?_
      | refine .optional _ ?_ ?_
      | exact trivial
      | exact .notes _

variable (hcalls : ext.Calls kernel kernel')

include hcalls

theorem functionApply (function : Function) {values : List Value}
    (hvalues : AllIgnore ext.id values) :
    ext.Follows (Value.Ignores ext.id) (function.apply kernel values)
      (function.apply kernel' values) := by
  unfold Function.apply
  split
  next => exact (newOfClass .thing .null).bind fun _ _ => pure trivial
  next => exact (newOfClass _ (hvalues _ List.mem_cons_self)).bind fun _ _ => pure trivial
  next label val position children parent notes =>
    simp only [allIgnore_cons] at hvalues
    obtain ⟨hlabel, hval, hposition, hchildren, hparent, hnotes, _⟩ := hvalues
    refine (newNode hlabel hval hposition).bind fun node _ => ?_
    refine (changeCell node fun hcell => ?_).bind fun _ _ => pure trivial
    exact { hcell with children := hchildren, parent := hparent, notes := hnotes }
  next line column offset =>
    simp only [allIgnore_cons] at hvalues
    obtain ⟨hline, hcolumn, hoffset, _⟩ := hvalues
    exact fresh.bind fun _ _ => pure ⟨hline, hcolumn, hoffset⟩
  next start stop =>
    simp only [allIgnore_cons] at hvalues
    obtain ⟨hstart, hstop, _⟩ := hvalues
    exact fresh.bind fun _ _ => pure ⟨hstart, hstop⟩
  next source flags =>
    simp only [allIgnore_cons] at hvalues
    obtain ⟨_, hflags, _⟩ := hvalues
    exact (compilePattern source hflags).bind fun _ _ => pure trivial
  next label pattern =>
    simp only [allIgnore_cons] at hvalues
    obtain ⟨hlabel, hpattern, _⟩ := hvalues
    exact makePatternRule hlabel hpattern
  next parser label matcher flags =>
    simp only [allIgnore_cons] at hvalues
    obtain ⟨hparser, hlabel, hmatcher, hflags, _⟩ := hvalues
    exact capture hcalls hparser hlabel hmatcher hflags
  next => exact fresh.bind fun _ _ => pure trivial
  next host options kind =>
    simp only [allIgnore_cons] at hvalues
    obtain ⟨hhost, _, hkind, _⟩ := hvalues
    exact (kindOrNull hkind).bind fun _ hexpected => install hcalls hhost hexpected
  next host kind =>
    simp only [allIgnore_cons] at hvalues
    obtain ⟨_, hkind, _⟩ := hvalues
    exact (kindOrNull hkind).bind fun _ hexpected =>
      (resolveKind host hexpected).bind fun _ _ => pure trivial
  next kind host =>
    refine (kindOf (hvalues kind List.mem_cons_self)).bind fun kind _ => ?_
    refine get fun world patterns notices hfits => ?_
    rw [kindsOf_widen]
    exact pure trivial
  next source place =>
    refine (boundsAround source place).bind fun bounds _ => ?_
    split
    exact newList (.cons (.int _) (.cons (.int _) .nil))
  next => exact snippetAt _ _
  next one other =>
    simp only [allIgnore_cons] at hvalues
    obtain ⟨hone, hother, _⟩ := hvalues
    exact (equal hone hother).bind fun _ _ => pure trivial
  next => exact pure trivial
  next => exact (spell (hvalues _ List.mem_cons_self)).bind fun _ _ => pure trivial
  next => exact (hasAttribute (hvalues _ List.mem_cons_self) _).bind fun _ _ => pure trivial
  next stamp node =>
    simp only [allIgnore_cons] at hvalues
    obtain ⟨hstamp, hnode, _⟩ := hvalues
    exact hcalls.call hstamp (.cons hnode .nil)
  next => exact pure trivial
  next => exact fail _

theorem functionInvoke (function : Function) {args : Args} (hargs : args.Ignores ext.id) :
    ext.Follows (Value.Ignores ext.id) (function.invoke kernel args)
      (function.invoke kernel' args) := by
  unfold Function.invoke
  split
  next callable rest hpositional =>
    have hvalues := hargs.positional
    rw [hpositional] at hvalues
    obtain ⟨hcallable, hrest⟩ := List.forall_mem_cons.mp hvalues
    exact hcalls.invoke hcallable ⟨hrest, hargs.named⟩
  next => exact fail _
  next =>
    refine get fun world patterns notices hfits => ?_
    exact (bindArgs hargs (paramsIgnore_function world _)).bind fun values hvalues =>
      functionApply hcalls _ hvalues

end Functions

end Follows

end Extension

end Rulebook
