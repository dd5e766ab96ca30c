import Rulebook.Proofs.Registration
import Rulebook.Proofs.Store

/-!
# What capturing refuses, and what it changes

Whether a rule can be captured is settled by its label, by what is captured and by the flags, and
before anything changes: a capture that is refused, or whose source does not compile, leaves the
world as it was. A capture that succeeds reports it once, and writes under its label alone: the rule
among the rules, and of a pattern that pattern in the registry.
-/

namespace Rulebook

open Run

/-! ## What is asked of a capture -/

/-- A value that can be the label of a rule: a text that is not empty. -/
def Value.NamesRule : Value → Prop
  | .text name => name ≠ ""
  | _ => False

/-- A capture that is no proper use of it. -/
inductive Misused (label matcher : Value) (flags : String) : Prop
  | label (hlabel : ¬ label.NamesRule)
  | callable (hcallable : matcher.isCallable = true) (hflags : flags ≠ "")
  | unsupported (hcallable : matcher.isCallable = false) (hpattern : isTextPattern matcher = false)
  | compiled {pattern : Pattern} (hmatcher : matcher = .pattern pattern)
      (htext : pattern.binary = false) (hflags : flags ≠ "")

/-- The fault of a source that does not compile. -/
def Pattern.Refusal.fault : Pattern.Refusal → Fault
  | .malformed => .badPattern
  | .hugeCount => .hugeRepetition
  | .twoAlphabets => .twoAlphabets .extended

/-- A matcher is a source that does not compile under flags. -/
def Value.FailsToCompile (matcher : Value) (flags : String) (refusal : Pattern.Refusal) : Prop :=
  ∃ source, matcher = .text source ∧
    Pattern.compile .extended source false (.ofLetters flags.toList) = .error refusal

/-- A matcher comes to a pattern under flags: its source compiles to it, or it is the pattern. -/
inductive Value.ComesTo (flags : String) : Value → Pattern → Prop
  | source {source : String} {pattern : Pattern}
      (hcompile : Pattern.compile .extended source false (.ofLetters flags.toList) = .ok pattern) :
      ComesTo flags (.text source) pattern
  | compiled (pattern : Pattern) : ComesTo flags (.pattern pattern) pattern

/-! ## Writing under a label -/

namespace World

/-- The world with a value written into a record under a label. -/
def writeUnder (world : World) (ref : RecordRef) (label : String) (value : Value) : World :=
  world.changeRecord ref fun record => record.write (.text label) (.text label) value

/-- Two worlds differ at most in what is in their records and in what was reported. -/
structure SameButRecords (world after : World) : Prop where
  sizes : world.SameSizes after
  host : ∀ id, ∃ ownOptions ownRules ownPatterns,
    after.host id = { world.host id with ownOptions, ownRules, ownPatterns }
  cell : ∀ node, ∃ ownNotes, after.cell node = { world.cell node with ownNotes }
  items : ∀ ref, after.items ref = world.items ref
  extras : after.extras = world.extras
  globals : after.globals = world.globals
  frame : after.frame = world.frame
  traces : after.traces = world.traces

variable {world : World} {ref other : RecordRef} {label : String} {value : Value}

theorem SameButRecords.trans {middle after : World} (hfirst : world.SameButRecords middle)
    (hsecond : middle.SameButRecords after) : world.SameButRecords after where
  sizes := hfirst.sizes.trans hsecond.sizes
  host id := by
    obtain ⟨_, _, _, hmiddle⟩ := hfirst.host id
    obtain ⟨_, _, _, hafter⟩ := hsecond.host id
    rw [hafter, hmiddle]
    exact ⟨_, _, _, rfl⟩
  cell node := by
    obtain ⟨_, hmiddle⟩ := hfirst.cell node
    obtain ⟨_, hafter⟩ := hsecond.cell node
    rw [hafter, hmiddle]
    exact ⟨_, rfl⟩
  items ref := (hsecond.items ref).trans (hfirst.items ref)
  extras := hsecond.extras.trans hfirst.extras
  globals := hsecond.globals.trans hfirst.globals
  frame := hsecond.frame.trans hfirst.frame
  traces := hsecond.traces.trans hfirst.traces

theorem sameButRecords_writeUnder (ref : RecordRef) (label : String) (value : Value) :
    world.SameButRecords (world.writeUnder ref label value) where
  sizes := world.sameSizes_changeRecord ref _
  host id := by
    obtain ⟨_, _, _, _, hhost⟩ := world.host_changeRecord ref
      (fun record => record.write (.text label) (.text label) value) id
    exact ⟨_, _, _, hhost⟩
  cell node := world.cell_changeRecord ref _ node
  items other := world.items_changeRecord ref _ other
  extras := by cases ref <;> rfl
  globals := by cases ref <;> rfl
  frame := by cases ref <;> rfl
  traces := by cases ref <;> rfl

/-- Reports and serial numbers do not count. -/
theorem SameButRecords.report {after : World} (hsame : world.SameButRecords after)
    (notices : Array Notice) (serial : Nat) :
    world.SameButRecords { after with notices, serial } where
  sizes := ⟨hsame.sizes.forest, hsame.sizes.hosts, hsame.sizes.openStacks, hsame.sizes.lists,
    hsame.sizes.records⟩
  host := hsame.host
  cell := hsame.cell
  items ref := by rw [← hsame.items ref]; cases ref <;> rfl
  extras := hsame.extras
  globals := hsame.globals
  frame := hsame.frame
  traces := hsame.traces

theorem record_report (notices : Array Notice) (serial : Nat) (ref : RecordRef) :
    World.record { world with notices, serial } ref = world.record ref := by
  cases ref <;> rfl

open Classical in
theorem record_writeUnder (ref other : RecordRef) (label : String) (value : Value) :
    (world.writeUnder ref label value).record other =
      if ref = other ∧ world.HasRecord other then
        (world.record other).write (.text label) (.text label) value
      else world.record other :=
  world.record_changeRecord ref other _

/-- Writing into a record changes no other. -/
theorem record_writeUnder_other (hother : other ≠ ref) :
    (world.writeUnder ref label value).record other = world.record other := by
  rw [record_writeUnder, if_neg fun h => hother h.1.symm]

/-- Writing under a label changes nothing under other keys. -/
theorem get?_writeUnder_other (ref other : RecordRef) {key : Key} (hkey : key ≠ .text label) :
    ((world.writeUnder ref label value).record other).get? key =
      (world.record other).get? key := by
  rw [record_writeUnder]
  split
  next => rw [Record.write, Table.get?_insert, if_neg hkey]
  next => rfl

theorem get?_writeUnder_self (hrecord : world.HasRecord ref) :
    (((world.writeUnder ref label value).record ref).get? (.text label)).map Entry.value =
      some value := by
  rw [record_writeUnder, if_pos ⟨rfl, hrecord⟩, Record.write, Table.get?_insert, if_pos rfl]
  rfl

/-- A label keeps its place among the keys of a record, and a new one comes last. -/
theorem keys_writeUnder (ref other : RecordRef) (label : String) (value : Value) :
    ((world.writeUnder ref label value).record other).keys = (world.record other).keys ∨
      (.text label ∉ (world.record other).keys ∧
        ((world.writeUnder ref label value).record other).keys =
          (world.record other).keys ++ [.text label]) := by
  rw [record_writeUnder]
  split
  next =>
    rw [Record.write, Table.keys_insert]
    split
    next => exact .inl rfl
    next hnew => exact .inr ⟨hnew, rfl⟩
  next => exact .inl rfl

end World

/-! ## What a capture that succeeds leaves -/

/-- A parser on which rules can be captured: its `set` is the method of its class, and its rules
and its patterns are records, whichever they are. -/
structure World.Captures (world : World) (id : HostId) (rules patterns : RecordRef) : Prop where
  set : (world.host id).hostClass.method? "set" = some (.parser .set)
  unreplaced : (world.host id).members.get? "set" = none
  hasRules : world.HasRecord rules
  hasPatterns : world.HasRecord patterns
  rules : (world.host id).rules = some (.record rules)
  patterns : (world.host id).patterns = some (.record patterns)

/-- One world comes from another by entering a rule under a label, which may be made from a
pattern, and by reporting that. -/
structure World.Entered (world after : World) (rules patterns : RecordRef) (label : String)
    (rule : Value) (pattern : Option Pattern) (notice : Notice) : Prop where
  notices : after.notices = world.notices.push notice
  entered : ((after.record rules).get? (.text label)).map Entry.value = some rule
  registered : ∀ captured ∈ pattern, patterns ≠ rules →
    ((after.record patterns).get? (.text label)).map Entry.value = some (.pattern captured)
  /-- Other labels keep what is under them, in all records. -/
  labels : ∀ ref key, key ≠ .text label → (after.record ref).get? key = (world.record ref).get? key
  keys : ∀ ref, (after.record ref).keys = (world.record ref).keys ∨
    (.text label ∉ (world.record ref).keys ∧
      (after.record ref).keys = (world.record ref).keys ++ [.text label])
  /-- The registry changes for a pattern only, and records other than the two never. -/
  records : ∀ ref, ref ≠ rules → (ref = patterns → pattern = none) →
    after.record ref = world.record ref
  rest : world.SameButRecords after

section Outcome

variable {world after : World} {id : HostId} {rules patterns : RecordRef} {label : String}
  {rounds depth : Nat}

theorem World.Captures.congr (hcaptures : world.Captures id rules patterns)
    (hsame : world.SameButRecords after) : after.Captures id rules patterns := by
  obtain ⟨_, _, _, hhost⟩ := hsame.host id
  exact
    { set := by rw [hhost]; exact hcaptures.set
      unreplaced := by rw [hhost]; exact hcaptures.unreplaced
      hasRules := (hsame.sizes.hasRecord rules).mpr hcaptures.hasRules
      hasPatterns := (hsame.sizes.hasRecord patterns).mpr hcaptures.hasPatterns
      rules := by rw [hhost]; exact hcaptures.rules
      patterns := by rw [hhost]; exact hcaptures.patterns }

theorem sendSet_writes (hcaptures : world.Captures id rules patterns) (label : String)
    (rule : Value) :
    ((Kernel.ofDepth rounds (depth + 1)).sendHost id "set" [.text label, rule]).outcome world =
      (.ok (.host id),
        { world.writeUnder rules label rule with serial := world.serial + 1 }) := by
  refine (sendFree_run_outcome .set hcaptures.set hcaptures.unreplaced rounds depth rfl).trans ?_
  have hrules := hostPart_look "rules" hcaptures.rules (world.serial + 1)
  have hset : (Parser.setRule id (.text label) rule).outcome
      (world.withSerial (world.serial + 1)) =
      (.ok (), { world.writeUnder rules label rule with serial := world.serial + 1 }) := by
    refine (outcome_bind_ok hrules).trans ?_
    cases rules <;> rfl
  exact outcome_bind_ok hset

/-- A callable is entered as it is, and that is reported before. -/
theorem captureCallable_enters (hcaptures : world.Captures id rules patterns) (label : String)
    (matcher : Value) :
    (captureCallable (Kernel.ofDepth rounds (depth + 1)) (.host id) label matcher
        (.text "")).outcome world =
      (.ok (.host id), { world.writeUnder rules label matcher with
        notices := world.notices.push (.callbackRule label), serial := world.serial + 1 }) := by
  have hset : (isSet (.text "")).outcome world = (.ok false, world) :=
    isSet_text_look "" world.serial
  refine (outcome_bind_ok hset).trans ?_
  let noticed : World := { world with notices := world.notices.push (.callbackRule label) }
  have hnotify : (notify (.callbackRule label)).outcome world = (.ok (), noticed) := rfl
  have hnoticed : noticed.Captures id rules patterns :=
    ⟨hcaptures.set, hcaptures.unreplaced, hcaptures.hasRules, hcaptures.hasPatterns,
      hcaptures.rules, hcaptures.patterns⟩
  refine (outcome_bind_ok hnotify).trans ((sendSet_writes hnoticed label matcher).trans ?_)
  cases rules <;> rfl

theorem entered_callable (hcaptures : world.Captures id rules patterns) (label : String)
    (matcher : Value) (serial : Nat) :
    world.Entered { world.writeUnder rules label matcher with
        notices := world.notices.push (.callbackRule label), serial } rules patterns label matcher
      none (.callbackRule label) where
  notices := rfl
  entered := by
    rw [World.record_report]
    exact World.get?_writeUnder_self hcaptures.hasRules
  registered _ hnone := absurd hnone (Option.not_mem_none _)
  labels ref key hkey := by
    rw [World.record_report]
    exact World.get?_writeUnder_other rules ref hkey
  keys ref := by
    rw [World.record_report]
    exact World.keys_writeUnder rules ref label matcher
  records ref hrules _ := by
    rw [World.record_report]
    exact World.record_writeUnder_other hrules
  rest := (World.sameButRecords_writeUnder rules label matcher).report _ _

/-- A pattern is entered in the registry, that is reported, and then a rule made from it is set. -/
theorem enterPattern_enters (hcaptures : world.Captures id rules patterns) (label : String)
    (pattern : Pattern) :
    (enterPattern (Kernel.ofDepth rounds (depth + 1)) (.host id) label pattern).outcome world =
      (.ok (.host id),
        { (world.writeUnder patterns label (.pattern pattern)).writeUnder rules label
            (.patternRule world.serial ("capture_" ++ label) (.text label) (.pattern pattern)) with
          notices := world.notices.push (.patternRule label (Text.quoted pattern.source))
          serial := world.serial + 2 }) := by
  have hlook : (attributeOf (.host id) "regex").outcome world =
      (.ok (.record patterns), world) :=
    @attributeOf_look world id "regex" _ hcaptures.patterns rfl world.serial
  refine (outcome_bind_ok hlook).trans ?_
  let entered := world.writeUnder patterns label (.pattern pattern)
  let noticed : World := { entered with
    notices := world.notices.push (.patternRule label (Text.quoted pattern.source))
    serial := world.serial + 1 }
  have hnoticed : noticed.Captures id rules patterns :=
    hcaptures.congr ((World.sameButRecords_writeUnder patterns label _).report _ _)
  -- the rule is set in a world in which the pattern is entered, and noted
  have hset := @sendSet_writes _ _ _ _ rounds depth hnoticed label
    (.patternRule world.serial ("capture_" ++ label) (.text label) (.pattern pattern))
  refine Eq.trans ?_ (hset.trans ?_)
  · cases patterns <;> rfl
  · cases rules <;> rfl

theorem entered_pattern (hcaptures : world.Captures id rules patterns) (label : String)
    (pattern : Pattern) (rule : Value) (serial : Nat) :
    world.Entered
      { (world.writeUnder patterns label (.pattern pattern)).writeUnder rules label rule with
        notices := world.notices.push (.patternRule label (Text.quoted pattern.source)), serial }
      rules patterns label rule (some pattern)
      (.patternRule label (Text.quoted pattern.source)) := by
  let entered := world.writeUnder patterns label (.pattern pattern)
  have hsame : world.SameButRecords entered := World.sameButRecords_writeUnder patterns label _
  have hrecord : ∀ ref, World.record
      { entered.writeUnder rules label rule with
        notices := world.notices.push (.patternRule label (Text.quoted pattern.source)), serial }
      ref = (entered.writeUnder rules label rule).record ref := World.record_report _ _
  refine
    { notices := rfl
      entered := ?_
      registered := ?_
      labels := ?_
      keys := ?_
      records := ?_
      rest := (hsame.trans (World.sameButRecords_writeUnder rules label rule)).report _ _ }
  · rw [hrecord]
    exact World.get?_writeUnder_self ((hsame.sizes.hasRecord rules).mpr hcaptures.hasRules)
  · rintro _ ⟨⟩ hother
    rw [hrecord, World.record_writeUnder_other hother]
    exact World.get?_writeUnder_self hcaptures.hasPatterns
  · intro ref key hkey
    rw [hrecord, World.get?_writeUnder_other rules ref hkey]
    exact World.get?_writeUnder_other patterns ref hkey
  · intro ref
    rw [hrecord]
    -- a label that the pattern brings into a record is there when the rule is written
    rcases @World.keys_writeUnder world patterns ref label (.pattern pattern)
      with hsame | ⟨hnew, hlast⟩
    · rw [← hsame]
      exact World.keys_writeUnder rules ref label rule
    · refine .inr ⟨hnew, ?_⟩
      rcases @World.keys_writeUnder entered rules ref label rule with hkeys | ⟨hnot, _⟩
      · exact hkeys.trans hlast
      · rw [hlast] at hnot
        exact absurd (List.mem_append_right _ List.mem_cons_self) hnot
  · intro ref hrules hpatterns
    rw [hrecord, World.record_writeUnder_other hrules]
    exact World.record_writeUnder_other fun href => nomatch hpatterns href

end Outcome

/-! ## How a capture ends -/

section Ending

variable {world : World} {label matcher : Value} {flags name : String}

theorem Value.NamesRule.exists_name (hlabel : label.NamesRule) :
    ∃ name, label = .text name ∧ name ≠ "" := by
  cases label with
  | text name => exact ⟨name, rfl, hlabel⟩
  | _ => exact hlabel.elim

/-- A label that can be none is refused first. -/
theorem capture_badLabel (kernel : Kernel) (parser : Value) (hlabel : ¬ label.NamesRule)
    (matcher flags : Value) :
    (capture kernel parser label matcher flags).outcome world =
      (.error (.badRuleName (world.spell label)), world) := by
  cases label with
  | text name =>
      obtain rfl : name = "" := not_not.mp hlabel
      have hset : (isSet (.text "")).outcome world = (.ok false, world) :=
        isSet_text_look "" world.serial
      exact outcome_bind_ok hset
  | null | bool | int | decimal | bytes | list | record | node | host | location | span | found
  | stamp | pattern | callback | patternRule | plugin | captureRule | forward | bound | method
  | kind => rfl

/-- Under a label that can be one, capturing goes by what is captured. -/
theorem capture_label (kernel : Kernel) (parser : Value) (hname : name ≠ "")
    (matcher flags : Value) :
    (capture kernel parser (.text name) matcher flags).outcome world =
      (if matcher.isCallable then captureCallable kernel parser name matcher flags
        else capturePattern kernel parser name matcher flags).outcome world := by
  have hset : (isSet (.text name)).outcome world = (.ok true, world) := by
    rw [← bne_iff_ne.mpr hname]
    exact isSet_text_look name world.serial
  exact outcome_bind_ok hset

/-- What is neither a callable nor a text pattern is refused whatever the flags are. -/
theorem capture_unsupported (kernel : Kernel) (parser : Value) (hname : name ≠ "")
    (hcallable : matcher.isCallable = false) (hpattern : isTextPattern matcher = false)
    (flags : Value) :
    (capture kernel parser (.text name) matcher flags).outcome world =
      (.error (.badMatcher name (world.className matcher)), world) := by
  rw [capture_label _ _ hname, hcallable]
  simp only [capturePattern, hpattern]
  rfl

theorem captureCallable_flagged (kernel : Kernel) (parser : Value) (name : String)
    (matcher : Value) (hflags : flags ≠ "") :
    (captureCallable kernel parser name matcher (.text flags)).outcome world =
      (.error (.flagsNeedSource name), world) := by
  have hset : (isSet (.text flags)).outcome world = (.ok true, world) := by
    rw [← bne_iff_ne.mpr hflags]
    exact isSet_text_look flags world.serial
  exact outcome_bind_ok hset

/-- A misused capture is refused and changes nothing. -/
theorem capture_misused (kernel : Kernel) (parser : Value) (hmisused : Misused label matcher flags) :
    ∃ fault, (capture kernel parser label matcher (.text flags)).outcome world =
        (.error fault, world) ∧ fault.className = "ConfigurationError" := by
  by_cases hlabel : label.NamesRule
  · obtain ⟨name, rfl, hname⟩ := hlabel.exists_name
    cases hmisused with
    | label hbad => exact absurd hlabel hbad
    | callable hcallable hflags =>
        refine ⟨.flagsNeedSource name, ?_, rfl⟩
        rw [capture_label _ _ hname, hcallable]
        exact captureCallable_flagged kernel parser name matcher hflags
    | unsupported hcallable hpattern =>
        exact ⟨_, capture_unsupported kernel parser hname hcallable hpattern _, rfl⟩
    | compiled hmatcher htext hflags =>
        subst hmatcher
        refine ⟨.flagsNeedSource name, ?_, rfl⟩
        rw [capture_label _ _ hname]
        exact (capturePattern_compiled htext world).trans (if_neg hflags)
  · exact ⟨_, capture_badLabel kernel parser hlabel matcher _, rfl⟩

/-- A source that does not compile fails with the fault of the compilation, and nothing changes. -/
theorem capture_uncompiled (kernel : Kernel) (parser : Value) (hname : name ≠ "")
    {refusal : Pattern.Refusal} (hfails : matcher.FailsToCompile flags refusal) :
    (capture kernel parser (.text name) matcher (.text flags)).outcome world =
      (.error refusal.fault, world) := by
  obtain ⟨source, rfl, hcompile⟩ := hfails
  rw [capture_label _ _ hname]
  refine (capturePattern_source source flags world).trans ?_
  rw [Run.compile, hcompile]
  cases refusal <;> rfl

/-- What is neither misused nor fails to compile is entered. -/
theorem capture_enters {id : HostId} {rules patterns : RecordRef}
    (hcaptures : world.Captures id rules patterns) (rounds depth : Nat)
    (hproper : ¬ Misused label matcher flags)
    (hcompiles : ∀ refusal, ¬ matcher.FailsToCompile flags refusal) :
    ∃ after, (capture (Kernel.ofDepth rounds (depth + 1)) (.host id) label matcher
        (.text flags)).outcome world = (.ok (.host id), after) ∧
      ∃ name, label = .text name ∧
        ((matcher.isCallable = true ∧
            world.Entered after rules patterns name matcher none (.callbackRule name)) ∨
          ∃ pattern, matcher.ComesTo flags pattern ∧
            world.Entered after rules patterns name
              (.patternRule world.serial ("capture_" ++ name) (.text name) (.pattern pattern))
              (some pattern) (.patternRule name (Text.quoted pattern.source))) := by
  have hlabel : label.NamesRule := not_not.mp fun hbad => hproper (.label hbad)
  obtain ⟨name, rfl, hname⟩ := hlabel.exists_name
  rw [capture_label _ _ hname]
  cases hcallable : matcher.isCallable with
  | true =>
      obtain rfl : flags = "" := not_not.mp fun hflags => hproper (.callable hcallable hflags)
      exact ⟨_, captureCallable_enters hcaptures name matcher, name, rfl,
        .inl ⟨rfl, entered_callable hcaptures name matcher _⟩⟩
  | false =>
      cases matcher with
      | text source =>
          cases hcompile : Pattern.compile .extended source false (.ofLetters flags.toList) with
          | error refusal => exact absurd ⟨source, rfl, hcompile⟩ (hcompiles refusal)
          | ok pattern =>
              refine ⟨_, ?_, name, rfl, .inr ⟨pattern, .source hcompile,
                entered_pattern hcaptures name pattern _ (world.serial + 2)⟩⟩
              refine (capturePattern_source source flags world).trans ?_
              rw [Run.compile, hcompile]
              exact enterPattern_enters hcaptures name pattern
      | pattern pattern =>
          cases htext : pattern.binary with
          | true =>
              have hunsupported : isTextPattern (.pattern pattern) = false := by
                simp [isTextPattern, htext]
              exact absurd (.unsupported hcallable hunsupported) hproper
          | false =>
              obtain rfl : flags = "" :=
                not_not.mp fun hflags => hproper (.compiled rfl htext hflags)
              refine ⟨_, ?_, name, rfl, .inr ⟨pattern, .compiled pattern,
                entered_pattern hcaptures name pattern _ (world.serial + 2)⟩⟩
              refine (capturePattern_compiled htext world).trans ?_
              rw [if_pos rfl]
              exact enterPattern_enters hcaptures name pattern
      | _ => exact absurd (.unsupported hcallable rfl) hproper

end Ending

/-! ## Calls of a capture -/

/-- A call captures on a host: it is one of the function with the host as its first argument, or one
of the member that the function was made on the host. -/
inductive World.CallsCapture (world : World) (id : HostId) (label matcher flags : Value) :
    Callee → Args → Prop
  | function {args : Args}
      (hargs : args.bind? captureParams = some [.host id, label, matcher, flags]) :
      CallsCapture world id label matcher flags (.value .captureRule) args
  | member {serial : Nat} {args : Args}
      (hmember : (world.host id).members.get? "capture" = some (.bound serial id .captureRule))
      (hargs : Args.bind? ⟨.host id :: args.positional, args.named⟩ captureParams =
        some [.host id, label, matcher, flags]) :
      CallsCapture world id label matcher flags (.method (.host id) "capture") args

section Calls

variable {world : World} {id : HostId} {label matcher flags : Value} {callee : Callee} {args : Args}

theorem invoke_captureRule {kernel : Kernel} {parser : Value}
    (hargs : args.bind? captureParams = some [parser, label, matcher, flags]) :
    callValue kernel .captureRule args = capture kernel parser label matcher flags := by
  simp only [callValue, Args.bind, hargs, pure_bind]

theorem World.CallsCapture.outcome_eq (hcall : world.CallsCapture id label matcher flags callee args)
    (rounds depth : Nat) :
    ∃ less, ((Kernel.ofDepth rounds (depth + 3)).invoke callee args).outcome world =
      (capture (Kernel.ofDepth rounds (less + 1)) (.host id) label matcher flags).outcome world := by
  cases hcall with
  | function hargs => exact ⟨depth + 1, by rw [← invoke_captureRule hargs]; rfl⟩
  | @member serial _ hmember hargs =>
      have hlook : (attributeOf (.host id) "capture").outcome world =
          (.ok (.bound serial id .captureRule), world) :=
        @attributeOf_look world id "capture" _ hmember rfl world.serial
      refine ⟨depth, (outcome_bind_ok hlook).trans ?_⟩
      rw [← invoke_captureRule hargs]
      rfl

end Calls

/-- How a capture of a matcher under a label ends, with a result and a world. -/
structure World.CaptureEnds (world : World) (id : HostId) (rules patterns : RecordRef)
    (label matcher : Value) (flags : String) (result : Except Fault Value) (after : World) :
    Prop where
  refused : (∃ fault, result = .error fault ∧ fault.className = "ConfigurationError") ↔
    Misused label matcher flags
  uncompiled : ∀ refusal, result = .error refusal.fault ↔
    ¬ Misused label matcher flags ∧ matcher.FailsToCompile flags refusal
  taken : result = .ok (.host id) ↔
    ¬ Misused label matcher flags ∧ ∀ refusal, ¬ matcher.FailsToCompile flags refusal
  /-- A bad label comes before all else. -/
  badLabel : ¬ label.NamesRule → result = .error (.badRuleName (world.spell label))
  /-- An unsupported matcher comes before flags. -/
  unsupported : ∀ name, label = .text name → name ≠ "" → matcher.isCallable = false →
    isTextPattern matcher = false → result = .error (.badMatcher name (world.className matcher))
  unchanged : ∀ fault, result = .error fault → after = world
  entered : result = .ok (.host id) → ∃ name, label = .text name ∧
    ((matcher.isCallable = true ∧
        world.Entered after rules patterns name matcher none (.callbackRule name)) ∨
      ∃ pattern, matcher.ComesTo flags pattern ∧
        world.Entered after rules patterns name
          (.patternRule world.serial ("capture_" ++ name) (.text name) (.pattern pattern))
          (some pattern) (.patternRule name (Text.quoted pattern.source)))

theorem Pattern.Refusal.className_fault (refusal : Pattern.Refusal) :
    refusal.fault.className ≠ "ConfigurationError" := by
  cases refusal <;> decide

theorem Pattern.Refusal.fault_inj {one other : Pattern.Refusal} (hfault : one.fault = other.fault) :
    one = other := by
  cases one <;> cases other <;> first | rfl | cases hfault

theorem Value.FailsToCompile.unique {matcher : Value} {flags : String}
    {one other : Pattern.Refusal} (hone : matcher.FailsToCompile flags one)
    (hother : matcher.FailsToCompile flags other) : one = other := by
  obtain ⟨source, rfl, hone⟩ := hone
  obtain ⟨_, ⟨⟩, hother⟩ := hother
  exact Except.error.inj (hone.symm.trans hother)

/-- A capture ends in one of three ways: it is refused where it is misused, it fails where a source
does not compile, and otherwise it enters a rule, which is the only way that changes anything. -/
theorem capture_refused_or_entered {world : World} {id : HostId} {rules patterns : RecordRef}
    (hcaptures : world.Captures id rules patterns) {label matcher : Value} {flags : String}
    {callee : Callee} {args : Args}
    (hcall : world.CallsCapture id label matcher (.text flags) callee args) (rounds depth : Nat) :
    ∃ result after,
      ((Kernel.ofDepth rounds (depth + 3)).invoke callee args).outcome world = (result, after) ∧
        world.CaptureEnds id rules patterns label matcher flags result after := by
  obtain ⟨less, hless⟩ := hcall.outcome_eq rounds depth
  rw [hless]
  let kernel := Kernel.ofDepth rounds (less + 1)
  obtain ⟨result, after, houtcome⟩ : ∃ result after,
      (capture kernel (.host id) label matcher (.text flags)).outcome world = (result, after) :=
    ⟨_, _, rfl⟩
  have hbad : ¬ label.NamesRule → result = .error (.badRuleName (world.spell label)) :=
    fun hlabel => congrArg Prod.fst
      (houtcome.symm.trans (capture_badLabel kernel (.host id) hlabel matcher _))
  have hunsupported : ∀ name, label = .text name → name ≠ "" → matcher.isCallable = false →
      isTextPattern matcher = false →
        result = .error (.badMatcher name (world.className matcher)) := by
    rintro name rfl hname hcallable hpattern
    exact congrArg Prod.fst (houtcome.symm.trans
      (capture_unsupported kernel (.host id) hname hcallable hpattern _))
  refine ⟨result, after, houtcome, ?_⟩
  by_cases hmisused : Misused label matcher flags
  · obtain ⟨fault, hrefused, hclass⟩ :=
      @capture_misused world _ _ _ kernel (.host id) hmisused
    obtain ⟨rfl, rfl⟩ := Prod.mk.inj (houtcome.symm.trans hrefused)
    refine
      { refused := ⟨fun _ => hmisused, fun _ => ⟨fault, rfl, hclass⟩⟩
        uncompiled := fun refusal => ⟨fun hfault => ?_, fun hproper => absurd hmisused hproper.1⟩
        taken := ⟨nofun, fun hproper => absurd hmisused hproper.1⟩
        badLabel := hbad
        unsupported := hunsupported
        unchanged := fun _ _ => rfl
        entered := nofun }
    cases hfault
    exact absurd hclass refusal.className_fault
  by_cases hfails : ∃ refusal, matcher.FailsToCompile flags refusal
  · obtain ⟨refusal, hfails⟩ := hfails
    have hlabel : label.NamesRule := not_not.mp fun hbad => hmisused (.label hbad)
    obtain ⟨name, rfl, hname⟩ := hlabel.exists_name
    obtain ⟨rfl, rfl⟩ := Prod.mk.inj
      (houtcome.symm.trans (capture_uncompiled kernel (.host id) hname hfails))
    refine
      { refused := ⟨?_, fun hbad => absurd hbad hmisused⟩
        uncompiled := fun other => ⟨fun hfault => ⟨hmisused, ?_⟩, fun hother => ?_⟩
        taken := ⟨nofun, fun hproper => absurd hfails (hproper.2 refusal)⟩
        badLabel := hbad
        unsupported := hunsupported
        unchanged := fun _ _ => rfl
        entered := nofun }
    · rintro ⟨_, ⟨⟩, hclass⟩
      exact absurd hclass refusal.className_fault
    · exact Pattern.Refusal.fault_inj (Except.error.inj hfault) ▸ hfails
    · rw [hfails.unique hother.2]
  · have hcompiles : ∀ refusal, ¬ matcher.FailsToCompile flags refusal :=
      fun refusal hrefusal => hfails ⟨refusal, hrefusal⟩
    obtain ⟨_, htaken, hentered⟩ := capture_enters hcaptures rounds less hmisused hcompiles
    obtain ⟨rfl, rfl⟩ := Prod.mk.inj (houtcome.symm.trans htaken)
    exact
      { refused := ⟨nofun, fun hbad => absurd hbad hmisused⟩
        uncompiled := fun refusal => ⟨nofun, fun hfails => absurd hfails.2 (hcompiles refusal)⟩
        taken := ⟨fun _ => ⟨hmisused, hcompiles⟩, fun _ => rfl⟩
        badLabel := hbad
        unsupported := hunsupported
        unchanged := nofun
        entered := fun _ => hentered }

theorem World.Equipped.captures {world : World} {id : HostId} {table : Table String Rule}
    (hequipped : world.Equipped id table) : world.Captures id (.rules id) (.patterns id) where
  set := hequipped.plain.method? .set
  unreplaced := hequipped.plain.members .set
  hasRules := hequipped.plain.present
  hasPatterns := hequipped.plain.present
  rules := hequipped.ruled.rules
  patterns := hequipped.patterns

/-- A new parser with `capture` installed refuses an open group under flags, and is as before. -/
theorem capture_openGroup_fails :
    ((Kernel.ofDepth 0 3).invoke (.method (.host 0) "capture")
      ⟨[.text "x", .text "("], [("flags", .text "i")]⟩).outcome World.start.addEquipped =
        (.error .badPattern, World.start.addEquipped) := by
  have hcaptures : World.start.addEquipped.Captures 0 (.rules 0) (.patterns 0) :=
    World.Equipped.captures ((@World.equipped_addCapture World.start 1).congr rfl)
  have hcall : World.start.addEquipped.CallsCapture 0 (.text "x") (.text "(") (.text "i")
      (.method (.host 0) "capture") ⟨[.text "x", .text "("], [("flags", .text "i")]⟩ :=
    @World.CallsCapture.member _ _ _ _ _ 1 _ rfl rfl
  obtain ⟨result, after, houtcome, hends⟩ := capture_refused_or_entered hcaptures hcall 0 0
  have hproper : ¬ Misused (.text "x") (.text "(") "i" := by
    rintro (hlabel | hcallable | ⟨_, hpattern⟩ | hmatcher)
    · exact hlabel (show "x" ≠ "" by decide)
    · cases hcallable
    · cases hpattern
    · cases hmatcher
  have hfails : (Value.text "(").FailsToCompile "i" .malformed := ⟨"(", rfl, by rfl⟩
  have hresult := (hends.uncompiled .malformed).mpr ⟨hproper, hfails⟩
  rw [houtcome, hends.unchanged _ hresult, hresult]
  rfl

end Rulebook
