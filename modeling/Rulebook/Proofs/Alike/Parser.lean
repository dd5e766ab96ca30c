import Rulebook.Function
import Rulebook.Proofs.Alike.Attribute

/-!
# Methods and functions that go the same way

Given kernels by which calls go the same way, so do the methods of parsers and facades, capturing
and installing, and the functions of scripts.
-/

namespace Rulebook

variable {bond : Bond}

/-! ## Parameters -/

theorem params_parserMethod (bond : Bond) (method : ParserMethod) : bond.Params method.params := by
  cases method <;>
    repeat' first
      | exact .nil
      | refine .cons ?_ ?_
      | exact .none
      | exact .some (.text _)

theorem params_facadeMethod (bond : Bond) (method : FacadeMethod) : bond.Params method.params := by
  cases method <;>
    repeat' first
      | exact .nil
      | refine .cons ?_ ?_
      | exact .none

namespace Bond.Follows

variable {value value' : Value}

/-! ## Patterns -/

theorem compile (dialect : Dialect) (source : String) (binary : Bool) (given : Flags) :
    bond.Follows Eq (Run.compile dialect source binary given)
      (Run.compile dialect source binary given) := by
  unfold Run.compile
  split
  next => exact pure rfl
  all_goals exact fail _

theorem flagLetters (halike : value.Alike bond value') :
    bond.Follows Eq (Rulebook.flagLetters value) (Rulebook.flagLetters value') := by
  refine (valuesIn halike).bind fun _ _ hvalues => ?_
  refine bind (mapM hvalues fun hvalue => (keyOf hvalue).bind fun _ _ hkey => ?_)
    fun _ _ (hall : List.Forall₂ Eq _ _) => ?_
  · cases hkey <;> exact pure rfl
  · rw [List.forall₂_eq_eq_eq] at hall
    exact pure (by rw [hall])

variable {source source' flags flags' : Value}

theorem compilePattern (hsource : source.Alike bond source') (hflags : flags.Alike bond flags') :
    bond.Follows Eq (Rulebook.compilePattern source flags)
      (Rulebook.compilePattern source' flags') := by
  cases hsource with
  | pattern pattern => exact pure rfl
  | text => exact (flagLetters hflags).bindEq fun _ => compile _ _ _ _
  | bytes => exact (flagLetters hflags).bindEq fun _ => compile _ _ _ _
  | _ => exact (flagLetters hflags).bindEq fun _ => fail _

/-! ## Methods of parsers -/

section Parser

variable {id : HostId} {kernel kernel' : Kernel}
  {label label' node node' start start' made made' : Value}
  {val val' : Value}

theorem reset (hid : bond.Sees id) (hinput : value.Alike bond value') :
    bond.Follows Eq (Parser.reset id value) (Parser.reset id value') := by
  refine (newNode (.text "root") (.text "") .null).bindEq fun root => ?_
  refine (newStack (.cons (.node root) .nil)).bind fun stack stack' hstack => changeHost hid ?_
  exact
    { alike := fun hhost =>
        { hhost with
          input := .some hinput, cursor := rfl, root := .some (.node root)
          stack := .some hstack }
      keeps := ⟨fun _ => rfl, fun _ => rfl, fun _ => rfl⟩
      keeps' := ⟨fun _ => rfl, fun _ => rfl, fun _ => rfl⟩ }

theorem location (hid : bond.Sees id) :
    bond.Follows (Value.Alike bond) (Parser.location id) (Parser.location id) :=
  (cursor hid "_line").bindEq fun cursor => locationOf cursor

theorem setRule (hid : bond.Sees id) (hlabel : label.Alike bond label')
    (hvalue : value.Alike bond value') :
    bond.Follows Eq (Parser.setRule id label value) (Parser.setRule id label' value') :=
  (hostPart hid (by decide)).bind fun _ _ hrules => setItem hrules.held hlabel hvalue

theorem getRule (hid : bond.Sees id) (hlabel : label.Alike bond label') :
    bond.Follows (Value.Alike bond) (Parser.getRule id label) (Parser.getRule id label') := by
  refine (hostPart hid (by decide)).bind fun _ _ hrules => ?_
  refine (getItem hrules hlabel).observe.bind fun _ _ hend => ?_
  cases hend with
  | ok hrule => exact pure hrule
  | error fault =>
      split
      next => contradiction
      next => exact (plainText hlabel).bindEq fun _ => fail _
      next => exact fail _

theorem charsLeft (hid : bond.Sees id) (binary : Bool) :
    bond.Follows Eq (Parser.charsLeft id binary) (Parser.charsLeft id binary) := by
  refine (hostPart hid (by decide)).bind fun input input' hinput => ?_
  refine (cursor hid "_i").bindEq fun cursor => ?_
  have hother : bond.Follows (@Eq (List Char))
      (do let _ ← Run.restOf input cursor.offset; Run.fail .wrongType)
      (do let _ ← Run.restOf input' cursor.offset; Run.fail .wrongType) :=
    (restOf hinput _).bind fun _ _ _ => fail _
  cases hinput with
  | text => cases binary <;> first | exact pure rfl | exact hother
  | bytes => cases binary <;> first | exact pure rfl | exact hother
  | _ => exact hother

theorem advance (hid : bond.Sees id) (hconsumed : value.Alike bond value') :
    bond.Follows Eq (Parser.advance id value) (Parser.advance id value') := by
  cases hconsumed with
  | text consumed =>
      refine (cursor hid _).bindEq fun cursor => changeHost hid ?_
      exact
        { alike := fun hhost => { hhost with cursor := rfl }
          keeps := ⟨fun _ => rfl, fun _ => rfl, fun _ => rfl⟩
          keeps' := ⟨fun _ => rfl, fun _ => rfl, fun _ => rfl⟩ }
  | bytes => exact fail _
  | _ =>
      exact (lengthOf (by constructor <;> assumption)).bindEq
        fun _ => lacks (by constructor <;> assumption) "find"

theorem prev (hid : bond.Sees id) : bond.Follows (Value.Alike bond) (Parser.prev id) (Parser.prev id) :=
  (hostPart hid (by decide)).bind fun _ _ hstack => getItem hstack (.int (-1))

theorem snippet (hid : bond.Sees id) : bond.Follows Eq (Parser.snippet id) (Parser.snippet id) := by
  refine (hostPart hid (by decide)).bind fun input input' hinput => ?_
  refine (cursor hid "_i").bindEq fun cursor => ?_
  cases hinput with
  | text => exact pure rfl
  | bytes => exact fail _
  | _ => exact lacks (by constructor <;> assumption) "rfind"

theorem pointer (hid : bond.Sees id) (hlocation : value.Alike bond value') :
    bond.Follows Eq (Parser.pointer id value) (Parser.pointer id value') := by
  refine (attributeOf hlocation (by decide)).bind fun _ _ hline => ?_
  refine (plainText hline).bindEq fun _ => ?_
  refine (attributeOf hlocation (by decide)).bind fun _ _ hcolumn => ?_
  refine (plainText hcolumn).bindEq fun _ => ?_
  exact (snippet hid).bindEq fun _ => pure rfl

theorem itemReached (hinput : value.Alike bond value') (place : Nat) :
    bond.Follows (Value.Alike bond) (Parser.itemReached value place)
      (Parser.itemReached value' place) := by
  have hitem := getItem hinput (.int (place : Int))
  cases hinput with
  | text text =>
      unfold Parser.itemReached
      dsimp only
      split
      next => exact pure (.text _)
      next => exact fail _
  | _ => exact hitem

theorem unclosed (hstack : value.Alike bond value') :
    bond.Follows (Value.Alike bond) (Parser.unclosed value) (Parser.unclosed value') := by
  refine (getItem hstack (.int (-1))).bind fun _ _ htop => ?_
  refine (attributeOf htop (by decide)).bind fun _ _ hlabel => ?_
  exact (plainText hlabel).bindEq fun _ => fail _

variable (hkernel : kernel.Alike bond kernel')

include hkernel

theorem askLocation (hid : bond.Sees id) :
    bond.Follows (Value.Alike bond) (Parser.askLocation kernel id)
      (Parser.askLocation kernel' id) :=
  hkernel.sendHost hid "location" .nil

theorem position (hid : bond.Sees id) :
    bond.Follows (Value.Alike bond) (Parser.position kernel id) (Parser.position kernel' id) :=
  (askLocation hkernel hid).bind fun _ _ hstart =>
    fresh.bind fun _ _ hserial => pure (.stamp hserial hid hstart)

theorem stamp (hid : bond.Sees id) (hstart : start.Alike bond start') (hnode : node.Alike bond node') :
    bond.Follows (Value.Alike bond) (Parser.stamp kernel id start node)
      (Parser.stamp kernel' id start' node') := by
  refine (askLocation hkernel hid).bind fun _ _ hstop => fresh.bind fun _ _ hserial => ?_
  exact (setAttribute hnode "position" (.span hserial hstart hstop)).bindEq fun _ => pure hnode

theorem matchPattern (hid : bond.Sees id) (hsource : source.Alike bond source') :
    bond.Follows (Value.Alike bond) (Parser.matchPattern kernel id source)
      (Parser.matchPattern kernel' id source') := by
  refine (compilePattern hsource (.text "")).bindEq fun pattern => ?_
  refine (charsLeft hid _).bindEq fun left => ?_
  split
  next => exact pure .null
  next found _ =>
    refine fresh.bind fun _ _ hserial => ?_
    refine (hkernel.sendHost hid "_advance_text"
      (.cons (alike_valueOf bond pattern found.text) .nil)).bind fun _ _ _ => ?_
    exact pure (.found hserial pattern found)

theorem parserNode (hmade : made.Alike bond made') (hlabel : label.Alike bond label')
    (hval : val.Alike bond val') :
    bond.Follows (Value.Alike bond) (Parser.newNode kernel made label val)
      (Parser.newNode kernel' made' label' val') :=
  (newNode hlabel hval .null).bindEq fun id => hkernel.call hmade (.cons (.node id) .nil)

theorem attachLoose (hid : bond.Sees id) (hnode : node.Alike bond node') :
    bond.Follows Eq (Parser.attachLoose kernel id node) (Parser.attachLoose kernel' id node') := by
  refine (attributeOf hnode (by decide)).bind fun _ _ hparent => ?_
  cases hparent with
  | null =>
      refine (hkernel.sendHost hid "prev" .nil).bind fun _ _ hprev => ?_
      exact (hkernel.send hprev "add_node" (.cons hnode .nil)).bind fun _ _ _ => pure rfl
  | _ => exact pure rfl

theorem push (hid : bond.Sees id) (hnode : node.Alike bond node') :
    bond.Follows (Value.Alike bond) (Parser.push kernel id node)
      (Parser.push kernel' id node') := by
  refine (attachLoose hkernel hid hnode).bindEq fun _ => ?_
  refine (hostPart hid (by decide)).bind fun _ _ hstack => ?_
  exact (append hkernel hstack hnode).bindEq fun _ => pure hnode

theorem noOpenNode (hid : bond.Sees id) (hlabel : label.Alike bond label') :
    bond.Follows (Value.Alike bond) (Parser.noOpenNode kernel id label)
      (Parser.noOpenNode kernel' id label') := by
  refine (askLocation hkernel hid).bind fun _ _ hlocation => ?_
  refine (plainText hlabel).bindEq fun _ => ?_
  exact (pointer hid hlocation).bindEq fun _ => fail _

theorem pop (hid : bond.Sees id) (hlabel : label.Alike bond label') :
    bond.Follows (Value.Alike bond) (Parser.pop kernel id label)
      (Parser.pop kernel' id label') := by
  refine (hostPart hid (by decide)).bind fun stack stack' hstack => ?_
  refine (lengthOf hstack).bindEq fun _ => ite (noOpenNode hkernel hid hlabel) ?_
  refine (getItem hstack (.int (-1))).bind fun _ _ htop => ?_
  refine (attributeOf htop (by decide)).bind fun _ _ hother => ?_
  exact (equal hother hlabel).bindEq fun _ =>
    ite (takeLast hstack) (noOpenNode hkernel hid hlabel)

theorem apply (hid : bond.Sees id) (hlabel : label.Alike bond label') :
    bond.Follows (Value.Alike bond) (Parser.apply kernel id label)
      (Parser.apply kernel' id label') := by
  refine (hkernel.sendHost hid "get" (.cons hlabel .nil)).bind fun _ _ hrule => ?_
  refine (hkernel.call hrule (.cons (.host hid) .nil)).bind fun _ _ hresult => ?_
  cases hresult with
  | node node => exact (attachLoose hkernel hid (.node node)).bindEq fun _ => pure (.node node)
  | _ => exact pure .null

theorem tryRules (hid : bond.Sees id) {labels labels' : List Value}
    (hlabels : List.Forall₂ (Value.Alike bond) labels labels') :
    bond.Follows Eq (Parser.tryRules kernel id labels) (Parser.tryRules kernel' id labels') := by
  induction hlabels with
  | nil => exact pure rfl
  | cons hlabel _ ih =>
      refine (cursor hid "_i").bindEq fun start => ?_
      refine (hkernel.sendHost hid "apply" (.cons hlabel .nil)).bind fun _ _ hresult => ?_
      refine (cursor hid "_i").bindEq fun stop => ite (pure rfl) ?_
      cases hresult with
      | null => exact ih
      | _ => exact (plainText hlabel).bindEq fun _ => fail _

theorem complain (hid : bond.Sees id) :
    bond.Follows Eq (Parser.complain kernel id) (Parser.complain kernel' id) := by
  refine (askLocation hkernel hid).bind fun _ _ hlocation => ?_
  refine (hostPart hid (by decide)).bind fun _ _ hinput => (cursor hid "_i").bindEq fun _ => ?_
  refine (itemReached hinput _).bind fun _ _ hfound => (spell hfound).bindEq fun _ => ?_
  exact (pointer hid hlocation).bindEq fun _ => fail _

theorem step (hid : bond.Sees id) :
    bond.Follows Eq (Parser.step kernel id) (Parser.step kernel' id) := by
  refine (hostPart hid (by decide)).bind fun _ _ hrules =>
    (valuesIn hrules).bind fun _ _ hlabels => ?_
  exact (tryRules hkernel hid hlabels).bindEq fun _ => ite (pure rfl) (complain hkernel hid)

theorem stepAll (hid : bond.Sees id) (fuel : Nat) :
    bond.Follows Eq (Parser.stepAll kernel id fuel) (Parser.stepAll kernel' id fuel) := by
  induction fuel with
  | zero => exact fail _
  | succ fuel ih =>
      refine (cursor hid "_i").bindEq fun _ => (hostPart hid (by decide)).bind fun _ _ hinput => ?_
      refine (lengthOf hinput).bindEq fun _ => ite ?_ (pure rfl)
      exact (hkernel.sendHost hid "_step" .nil).bind fun _ _ _ => ih

theorem parse (hid : bond.Sees id) (htext : value.Alike bond value') :
    bond.Follows (Value.Alike bond) (Parser.parse kernel id value)
      (Parser.parse kernel' id value') := by
  refine (hkernel.sendHost hid "reset" (.cons htext .nil)).bind fun _ _ _ => ?_
  rw [hkernel.fuel]
  refine (stepAll hkernel hid _).bindEq fun _ => (hostPart hid (by decide)).bind fun _ _ hstack => ?_
  exact (lengthOf hstack).bindEq fun _ => ite (unclosed hstack) (hostPart hid (by decide))

omit hkernel in
theorem defineMember (hid : bond.Sees id) {name name' : Value} (hname : name.Alike bond name')
    (hvalue : value.Alike bond value') :
    bond.Follows (Value.Alike bond) (Rulebook.defineMember id name value)
      (Rulebook.defineMember id name' value') := by
  unfold Rulebook.defineMember
  rw [hvalue.isCallable]
  refine ite (failBind _) ?_
  cases hname with
  | text name =>
      refine fresh.bind fun _ _ hserial => ?_
      exact (setAttribute (.host hid) name (.bound hserial hid hvalue)).bindEq
        fun _ => pure (.host hid)
  | _ => exact fail _

theorem usePlugin (hid : bond.Sees id) (hvalue : value.Alike bond value') :
    bond.Follows (Value.Alike bond) (Rulebook.usePlugin kernel id value)
      (Rulebook.usePlugin kernel' id value') :=
  (hkernel.call hvalue (.cons (.host hid) .nil)).bind fun _ _ _ => pure (.host hid)

theorem parserMethod (hid : bond.Sees id) (method : ParserMethod) {values values' : List Value}
    (hvalues : List.Forall₂ (Value.Alike bond) values values') :
    bond.Follows (Value.Alike bond) (method.run kernel id values)
      (method.run kernel' id values') := by
  cases method with
  | reset =>
      rcases hvalues with _ | ⟨htext, _ | ⟨_, _⟩⟩ <;> try exact fail _
      exact (reset hid htext).bindEq fun _ => pure .null
  | location => rcases hvalues with _ | ⟨_, _⟩ <;> first | exact location hid | exact fail _
  | define =>
      rcases hvalues with _ | ⟨hname, _ | ⟨hvalue, _ | ⟨_, _⟩⟩⟩ <;> try exact fail _
      exact defineMember hid hname hvalue
  | use =>
      rcases hvalues with _ | ⟨hvalue, _ | ⟨_, _⟩⟩ <;> try exact fail _
      exact usePlugin hkernel hid hvalue
  | set =>
      rcases hvalues with _ | ⟨hlabel, _ | ⟨hrule, _ | ⟨_, _⟩⟩⟩ <;> try exact fail _
      exact (setRule hid hlabel hrule).bindEq fun _ => pure (.host hid)
  | get =>
      rcases hvalues with _ | ⟨hlabel, _ | ⟨_, _⟩⟩ <;> try exact fail _
      exact getRule hid hlabel
  | position =>
      rcases hvalues with _ | ⟨_, _⟩ <;> first | exact position hkernel hid | exact fail _
  | «match» =>
      rcases hvalues with _ | ⟨hsource, _ | ⟨_, _⟩⟩ <;> try exact fail _
      exact matchPattern hkernel hid hsource
  | node =>
      rcases hvalues with _ | ⟨hstamp, _ | ⟨hlabel, _ | ⟨hval, _ | ⟨_, _⟩⟩⟩⟩ <;> try exact fail _
      exact parserNode hkernel hstamp hlabel hval
  | prev => rcases hvalues with _ | ⟨_, _⟩ <;> first | exact prev hid | exact fail _
  | push =>
      rcases hvalues with _ | ⟨hnode, _ | ⟨_, _⟩⟩ <;> try exact fail _
      exact push hkernel hid hnode
  | pop =>
      rcases hvalues with _ | ⟨hlabel, _ | ⟨_, _⟩⟩ <;> try exact fail _
      exact pop hkernel hid hlabel
  | apply =>
      rcases hvalues with _ | ⟨hlabel, _ | ⟨_, _⟩⟩ <;> try exact fail _
      exact apply hkernel hid hlabel
  | parse =>
      rcases hvalues with _ | ⟨htext, _ | ⟨_, _⟩⟩ <;> try exact fail _
      exact parse hkernel hid htext
  | step =>
      rcases hvalues with _ | ⟨_, _⟩ <;> try exact fail _
      exact (step hkernel hid).bindEq fun _ => pure .null
  | advance =>
      rcases hvalues with _ | ⟨hconsumed, _ | ⟨_, _⟩⟩ <;> try exact fail _
      exact (advance hid hconsumed).bindEq fun _ => pure .null

theorem facadeMethod (hid : bond.Sees id) (method : FacadeMethod) {values values' : List Value}
    (hvalues : List.Forall₂ (Value.Alike bond) values values') :
    bond.Follows (Value.Alike bond) (method.run kernel id values)
      (method.run kernel' id values') := by
  cases method with
  | define =>
      rcases hvalues with _ | ⟨hname, _ | ⟨hvalue, _ | ⟨_, _⟩⟩⟩ <;> try exact fail _
      exact defineMember hid hname hvalue
  | use =>
      rcases hvalues with _ | ⟨hvalue, _ | ⟨_, _⟩⟩ <;> try exact fail _
      exact usePlugin hkernel hid hvalue
  | parse =>
      rcases hvalues with _ | ⟨htext, _ | ⟨_, _⟩⟩ <;> try exact fail _
      exact (attributeOf (.host hid) (by decide)).bind fun _ _ hnested =>
        hkernel.send hnested "parse" (.cons htext .nil)

theorem hostMethod (hid : bond.Sees id) (method : HostMethod) {args args' : Args}
    (hargs : args.Alike bond args') :
    bond.Follows (Value.Alike bond) (method.run kernel id args) (method.run kernel' id args') := by
  cases method with
  | parser method =>
      exact (bindArgs hargs (params_parserMethod bond method)).bind fun _ _ hvalues =>
        parserMethod hkernel hid method hvalues
  | facade method =>
      exact (bindArgs hargs (params_facadeMethod bond method)).bind fun _ _ hvalues =>
        facadeMethod hkernel hid method hvalues

end Parser

/-! ## New hosts -/

theorem held_patterns {id : HostId} (hid : bond.Sees id) :
    (Value.record (.patterns id)).Held bond (.record (.patterns id)) := by
  rcases bond.shows_patterns id with hsight | hregistry
  · exact .inl (.record hsight)
  · rcases hid with hnone | hne
    · exact .inr ⟨hnone, by rw [hregistry], by rw [hregistry]⟩
    · exact .inl (.record hne)

theorem copyOptions (halike : value.Alike bond value') :
    bond.Follows (Record.Alike bond) (Run.copyOptions value) (Run.copyOptions value') :=
  (isSet halike).bindEq fun _ => ite (recordFrom halike) (pure .nil)

theorem newParser (hostClass : HostClass) (halike : value.Alike bond value') :
    bond.Follows bond.Seen (Run.newParser hostClass value) (Run.newParser hostClass value') := by
  refine (copyOptions halike).bind fun options options' hoptions => ?_
  refine bind (newHost (fun id hid => ?_) (fun _ => hoptions) (fun _ => .nil) fun _ => .nil) ?_
  · exact
      { hostClass := rfl, options := .some (.record hid), nested := .none
        rules := .some (.record hid), patterns := .some (held_patterns hid), input := .none
        cursor := rfl, root := .none, stack := .none, members := .nil }
  · rintro id _ ⟨rfl, hid⟩
    exact (reset hid (.text "")).bindEq fun _ => pure ⟨rfl, hid⟩

theorem newFacade (hostClass : HostClass) (halike : value.Alike bond value') :
    bond.Follows bond.Seen (Run.newFacade hostClass value) (Run.newFacade hostClass value') := by
  refine (copyOptions halike).bind fun options options' hoptions => ?_
  refine bind (newHost (fun id hid => ?_) (fun _ => hoptions) (fun _ => .nil) fun _ => .nil) ?_
  · exact
      { hostClass := rfl, options := .some (.record hid), nested := .none, rules := .none
        patterns := .none, input := .none, cursor := rfl, root := .none, stack := .none
        members := .nil }
  · rintro id _ ⟨rfl, hid⟩
    have hown : (Value.record (.options id)).Alike bond (.record (.options id)) := .record hid
    refine (newParser .parser hown).bind ?_
    rintro nested _ ⟨rfl, hnested⟩
    refine bindEq (changeHost hid ?_) fun _ => pure ⟨rfl, hid⟩
    exact
      { alike := fun hhost => { hhost with nested := .some (.host hnested) }
        keeps := ⟨fun _ => rfl, fun _ => rfl, fun _ => rfl⟩
        keeps' := ⟨fun _ => rfl, fun _ => rfl, fun _ => rfl⟩ }

theorem newOfClass (hostClass : HostClass) (halike : value.Alike bond value') :
    bond.Follows bond.Seen (Run.newOfClass hostClass value) (Run.newOfClass hostClass value') := by
  cases hostClass with
  | parser | subParser | parserFirst => exact newParser _ halike
  | facade | subFacade | facadeFirst => exact newFacade _ halike
  | thing =>
      have hbare : (Host.bare .thing).Alike bond (.bare .thing) :=
        { hostClass := rfl, options := .none, nested := .none, rules := .none, patterns := .none
          input := .none, cursor := rfl, root := .none, stack := .none, members := .nil }
      simp only [Run.newOfClass]
      exact newHost (fun _ _ => hbare) (fun _ => .nil) (fun _ => .nil) fun _ => .nil

/-! ## Capturing and installing -/

section Capture

variable {kernel kernel' : Kernel} {label label' matcher matcher' flags flags' : Value}
  {parser parser' host host' : Value}

theorem makePatternRule (hlabel : label.Alike bond label') (hvalue : value.Alike bond value') :
    bond.Follows (Value.Alike bond) (Rulebook.makePatternRule label value)
      (Rulebook.makePatternRule label' value') :=
  (plainText hlabel).bindEq fun _ =>
    fresh.bind fun _ _ hserial => pure (.patternRule hserial _ hlabel hvalue)

theorem resolveKind {expected expected' : Value} (hhost : host.Alike bond host')
    (hexpected : expected.Alike bond expected') :
    bond.Follows Eq (Rulebook.resolveKind host expected)
      (Rulebook.resolveKind host' expected') := by
  refine get fun world world' hworld => ?_
  rw [hworld.kindsOf hhost]
  split
  next => exact fail _
  next kind =>
    cases hexpected with
    | null => exact pure rfl
    | kind other => exact ite (pure rfl) (fail _)
    | _ =>
        refine (attributeOf (by constructor <;> assumption) (by decide)).bind fun _ _ hword => ?_
        exact (plainText hword).bindEq fun _ => fail _
  next => exact fail _

variable (hkernel : kernel.Alike bond kernel')

include hkernel

theorem runPatternRule (hlabel : label.Alike bond label') (hvalue : value.Alike bond value')
    (hparser : parser.Alike bond parser') :
    bond.Follows (Value.Alike bond) (Rulebook.runPatternRule kernel label value parser)
      (Rulebook.runPatternRule kernel' label' value' parser') := by
  have hwhole : ∀ {found found' : Value}, found.Alike bond found' →
      bond.Follows (Value.Alike bond) (kernel.send found "group" [.int 0])
        (kernel'.send found' "group" [.int 0]) :=
    fun hfound => hkernel.send hfound "group" (.cons (.int 0) .nil)
  refine (hkernel.send hparser "position" .nil).bind fun stamp stamp' hstamp => ?_
  refine (hkernel.send hparser "match" (.cons hvalue .nil)).bind fun found found' hfound => ?_
  have hgiven := hfound
  cases hfound with
  | null => exact pure .null
  | _ =>
      refine (hwhole hgiven).bind fun _ _ htext => (isSet htext).bindEq fun _ => ite ?_ (pure .null)
      refine (hwhole hgiven).bind fun _ _ hval => ?_
      refine (hkernel.send hparser "node"
        (.cons hstamp (.cons hlabel (.cons hval .nil)))).bind fun _ _ hnode => ?_
      exact (hkernel.send hnode "define" (.cons (.text "match") (.cons hgiven .nil))).bind
        fun _ _ _ => pure hnode

theorem captureCallable (hparser : parser.Alike bond parser') (name : String)
    (hmatcher : matcher.Alike bond matcher') (hflags : flags.Alike bond flags') :
    bond.Follows (Value.Alike bond) (Rulebook.captureCallable kernel parser name matcher flags)
      (Rulebook.captureCallable kernel' parser' name matcher' flags') := by
  refine (isSet hflags).bindEq fun _ => ite (failBind _) ?_
  exact (notify _).bindEq fun _ =>
    hkernel.send hparser "set" (.cons (.text name) (.cons hmatcher .nil))

theorem capturePattern (hparser : parser.Alike bond parser') (name : String)
    (hmatcher : matcher.Alike bond matcher') (hflags : flags.Alike bond flags') :
    bond.Follows (Value.Alike bond) (Rulebook.capturePattern kernel parser name matcher flags)
      (Rulebook.capturePattern kernel' parser' name matcher' flags') := by
  have htext : isTextPattern matcher = isTextPattern matcher' := by cases hmatcher <;> rfl
  have henter : bond.Follows (Value.Alike bond)
      (do
        let pattern ← Rulebook.compilePattern matcher flags
        Run.setItem (← Run.attributeOf parser "regex") (.text name) (.pattern pattern)
        Run.notify (.patternRule name (Text.quoted pattern.source))
        let rule ← Rulebook.makePatternRule (.text name) (.pattern pattern)
        kernel.send parser "set" [.text name, rule])
      (do
        let pattern ← Rulebook.compilePattern matcher' flags'
        Run.setItem (← Run.attributeOf parser' "regex") (.text name) (.pattern pattern)
        Run.notify (.patternRule name (Text.quoted pattern.source))
        let rule ← Rulebook.makePatternRule (.text name) (.pattern pattern)
        kernel'.send parser' "set" [.text name, rule]) := by
    refine (compilePattern hmatcher hflags).bindEq fun pattern => ?_
    refine (attributeOf_held hparser "regex").bind fun _ _ hregistry => ?_
    refine (setItem hregistry (.text name) (.pattern pattern)).bindEq fun _ => ?_
    refine (notify _).bindEq fun _ => ?_
    refine (makePatternRule (.text name) (.pattern pattern)).bind fun _ _ hrule => ?_
    exact hkernel.send hparser "set" (.cons (.text name) (.cons hrule .nil))
  unfold Rulebook.capturePattern
  rw [htext]
  refine ite ?_ ?_
  · refine get fun world world' hworld => ?_
    rw [hworld.className hmatcher]
    exact failBind _
  · refine (isSet hflags).bindEq fun set => ?_
    cases hmatcher with
    | pattern => cases set <;> first | exact henter | exact fail _
    | _ => exact henter

theorem capture (hparser : parser.Alike bond parser') (hlabel : label.Alike bond label')
    (hmatcher : matcher.Alike bond matcher') (hflags : flags.Alike bond flags') :
    bond.Follows (Value.Alike bond) (Rulebook.capture kernel parser label matcher flags)
      (Rulebook.capture kernel' parser' label' matcher' flags') := by
  have hspell : bond.Follows (Value.Alike bond)
      (do Run.fail (.badRuleName (← Run.spell label)))
      (do Run.fail (.badRuleName (← Run.spell label'))) :=
    (spell hlabel).bindEq fun _ => fail _
  refine (isSet hlabel).bindEq fun set => ?_
  cases hlabel with
  | text name =>
      cases set with
      | false => exact hspell
      | true =>
          dsimp only
          rw [hmatcher.isCallable]
          exact ite (captureCallable hkernel hparser name hmatcher hflags)
            (capturePattern hkernel hparser name hmatcher hflags)
  | _ => exact hspell

theorem forwardCapture {args args' : Args} (hargs : args.Alike bond args') :
    bond.Follows (Value.Alike bond) (Rulebook.forwardCapture kernel args)
      (Rulebook.forwardCapture kernel' args') := by
  obtain ⟨positional, named⟩ := args
  obtain ⟨positional', named'⟩ := args'
  obtain ⟨hpositional, hnamed⟩ := hargs
  rcases hpositional with _ | ⟨hfacade, hrest⟩
  · exact fail _
  · exact (attributeOf hfacade (by decide)).bind fun _ _ hnested =>
      hkernel.invoke (.method hnested "capture") ⟨hrest, hnamed⟩

theorem install {expected expected' : Value} (hhost : host.Alike bond host')
    (hexpected : expected.Alike bond expected') :
    bond.Follows (Value.Alike bond) (Rulebook.install kernel host expected)
      (Rulebook.install kernel' host' expected') := by
  have hdone : ∀ kind, bond.Follows (Value.Alike bond)
      (do Run.notify (.installed kind); return .null)
      (do Run.notify (.installed kind); return .null) := fun kind =>
    (notify _).bindEq fun _ => pure .null
  refine (resolveKind hhost hexpected).bindEq fun kind => ?_
  cases kind with
  | facade =>
      refine (attributeOf hhost (by decide)).bind fun _ _ hnested => ?_
      refine (hkernel.send hnested "define"
        (.cons (.text "capture") (.cons .captureRule .nil))).bind fun _ _ _ => ?_
      exact (hkernel.send hhost "define" (.cons (.text "capture") (.cons .forward .nil))).bind
        fun _ _ _ => hdone .facade
  | parser =>
      exact (hkernel.send hhost "define" (.cons (.text "capture") (.cons .captureRule .nil))).bind
        fun _ _ _ => hdone .parser

end Capture

end Bond.Follows

end Rulebook
