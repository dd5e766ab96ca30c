import Rulebook.Proofs.ParseLoop

/-!
# Registering rules

Rules are registered on a new parser that has `capture` installed: patterns by `capture`, scripts by
`set`. Whatever is registered, the rules of the parser are those of a table, to which every
registration adds at most the one rule that it is about; a capture that is refused leaves the table
as it was.
-/

namespace Rulebook

open Run

/-- A pattern, or the source of one. -/
inductive Matcher
  | source (text : String)
  | compiled (pattern : Pattern)

/-- What `capture` is given for a text pattern. -/
structure Capture where
  label : String
  matcher : Matcher
  flags : String

/-- A registration on a parser. -/
inductive Registration
  | capture (given : Capture)
  /-- A script is set under a label. -/
  | set (label name : String) (body : List Stmt)

/-- The value of a matcher. -/
def Matcher.value : Matcher → Value
  | .source text => .text text
  | .compiled pattern => .pattern pattern

/-- The pattern that a matcher comes to under flags. A compiled pattern takes none, and has to be
one over text. -/
def Matcher.pattern? (flags : String) : Matcher → Option Pattern
  | .source text => (Pattern.compile .extended text false (.ofLetters flags.toList)).toOption
  | .compiled pattern => if pattern.binary ∨ flags ≠ "" then none else some pattern

/-- The pattern that is captured, unless the capture is refused. -/
def Capture.pattern? (given : Capture) : Option Pattern :=
  if given.label = "" then none else given.matcher.pattern? given.flags

/-- The table after a registration. -/
def Registration.enter (table : Table String Rule) : Registration → Table String Rule
  | .capture given =>
    match given.pattern? with
    | some pattern => table.insert given.label (.captured pattern)
    | none => table
  | .set label _ body => table.insert label (.script body)

/-- The table after registrations from the first to the last. -/
def registered (registrations : List Registration) : Table String Rule :=
  registrations.foldl Registration.enter .empty

/-- Registers on a parser. -/
def Registration.run (kernel : Kernel) (id : HostId) : Registration → Run Value
  | .capture given =>
    kernel.sendHost id "capture" [.text given.label, given.matcher.value, .text given.flags]
  | .set label name body => do
    kernel.sendHost id "set" [.text label, .callback (← Run.fresh) name body]

/-- Registers one after another, whether the ones before were refused or not. -/
def registerAll (kernel : Kernel) (id : HostId) : List Registration → Run Unit
  | [] => return ()
  | registration :: rest => do
    let _ ← Run.observe (registration.run kernel id)
    registerAll kernel id rest

/-- A new parser with rules registered. -/
def newEquipped (kernel : Kernel) (registrations : List Registration) : Run HostId := do
  let id ← Run.newParser .parser .null
  let _ ← install kernel (.host id) .null
  registerAll kernel id registrations
  return id

/-- Registers rules on a new parser and reads a text with it. The parser comes with what the parse
gave, which can be a fault. -/
def parseWith (kernel : Kernel) (registrations : List Registration) (text : String) :
    Run (HostId × Except Fault Value) := do
  let id ← newEquipped kernel registrations
  let result ← Run.observe (kernel.sendHost id "parse" [.text text])
  return (id, result)

/-- A parser with `capture` installed and with the rules of a table. -/
structure World.Equipped (world : World) (id : HostId) (table : Table String Rule) : Prop where
  plain : world.Plain id
  ruled : world.Ruled id table
  patterns : (world.host id).patterns = some (.record (.patterns id))
  capture : ∃ serial, (world.host id).members.get? "capture" =
    some (.bound serial id .captureRule)

variable {world : World} {id : HostId} {table : Table String Rule} {rounds depth : Nat}

theorem World.Equipped.congr {other : World} (hequipped : world.Equipped id table)
    (hhosts : other.hosts = world.hosts) : other.Equipped id table := by
  have hhost : other.host id = world.host id := by simp only [World.host, hhosts]
  exact
    { plain := hequipped.plain.congr (by rw [hhosts]) (by rw [hhost]) (by rw [hhost])
      ruled := hequipped.ruled.congr (by rw [hhost]) (by rw [hhost])
      patterns := by rw [hhost]; exact hequipped.patterns
      capture := by rw [hhost]; exact hequipped.capture }

theorem World.Equipped.setRule (hequipped : world.Equipped id table) {label : String}
    {rule : Rule} {value : Value} (hdescribes : rule.Describes label value) :
    (world.setRule id label value).Equipped id (table.insert label rule) := by
  have hhost := World.host_setRule label value hequipped.plain.present
  exact
    { plain := hequipped.plain.congr (by simp [World.setRule, World.changeRecord, World.changeHost])
        (by rw [hhost]) (by rw [hhost])
      ruled := hequipped.ruled.setRule hequipped.plain.present hdescribes
      patterns := by rw [hhost]; exact hequipped.patterns
      capture := by rw [hhost]; exact hequipped.capture }

/-! ## Scripts -/

theorem set_run_gives (hequipped : world.Equipped id table) (label name : String)
    (body : List Stmt) :
    ((Registration.set label name body).run (Kernel.ofDepth rounds (depth + 1)) id).Gives world
      fun _ after => after.Equipped id (table.insert label (.script body)) := by
  refine Ends.fresh fun serial => ?_
  refine Gives.mono (set_gives hequipped.plain hequipped.ruled label _) ?_
  rintro _ _ ⟨_, rfl⟩
  exact hequipped.setRule ⟨serial, name, rfl⟩

/-! ## Captures -/

theorem flagLetters_look (flags : String) (world : World) :
    (flagLetters (.text flags)).outcome world = (.ok flags.toList, world) := by
  have hsingle : ((flags.toList.map fun char => [char]).filter fun letter =>
      letter.length == 1).flatten = flags.toList := by
    induction flags.toList with
    | nil => rfl
    | cons char rest ih => simpa using ih
  have hvalues : (valuesIn (.text flags)).outcome world = (.ok (charValues flags), world) := rfl
  rw [flagLetters, outcome_bind_ok hvalues, charValues, List.mapM_map]
  refine (outcome_bind_ok (mapM_look (fun char => [char]) (fun char => ?_) flags.toList)).trans ?_
  · -- a letter of a text is its own key
    have hkey : (keyOf (.ofChars [char])).outcome world =
        (.ok (.text (String.ofList [char])), world) := rfl
    refine (outcome_bind_ok hkey).trans ?_
    change (Except.ok (String.ofList [char]).toList, world) = _
    rw [String.toList_ofList]
  · rw [hsingle]
    rfl

theorem compile_binary {dialect : Dialect} {source : String} {binary : Bool} {given : Flags}
    {pattern : Pattern} (hcompile : Pattern.compile dialect source binary given = .ok pattern) :
    pattern.binary = binary := by
  rw [Pattern.compile] at hcompile
  cases hread : Pattern.read dialect source.toList
      { given with ascii := given.ascii || binary } with
  | error refusal =>
      rw [hread] at hcompile
      cases hcompile
  | ok result =>
      rw [hread] at hcompile
      cases hcompile
      rfl

theorem World.Equipped.setPattern (hequipped : world.Equipped id table)
    (change : Record → Record) :
    (world.changeRecord (.patterns id) change).Equipped id table := by
  have hhost : (world.changeRecord (.patterns id) change).host id =
      { world.host id with ownPatterns := change (world.host id).ownPatterns } := by
    rw [World.changeRecord, World.host_changeHost, if_pos ⟨rfl, hequipped.plain.present⟩]
  exact
    { plain := hequipped.plain.congr (by simp [World.changeRecord, World.changeHost])
        (by rw [hhost]) (by rw [hhost])
      ruled := hequipped.ruled.congr (by rw [hhost]) (by rw [hhost])
      patterns := by rw [hhost]; exact hequipped.patterns
      capture := by rw [hhost]; exact hequipped.capture }

theorem attributeOf_look {name : String} {value : Value}
    (hpart : (world.host id).attribute? name = some value)
    (hcomputed : isComputed (world.host id) name = false) (serial : Nat) :
    (attributeOf (.host id) name).outcome (world.withSerial serial) =
      (.ok value, world.withSerial serial) := by
  have hpart' : ((world.withSerial serial).host id).attribute? name = some value := hpart
  have hcomputed' : isComputed ((world.withSerial serial).host id) name = false := hcomputed
  simp only [attributeOf, hostAttribute, outcome_bind, outcome_host, hcomputed', hpart']
  rfl

/-- A rule that is made from a pattern, or from the source of one, is set like a script. -/
theorem setPatternRule_gives (hequipped : world.Equipped id table) (label : String)
    {source : Value} {pattern : Pattern} (hcompiles : source.Compiles pattern)
    (htext : pattern.binary = false) :
    (makePatternRule (.text label) source >>= fun rule =>
      (Kernel.ofDepth rounds (depth + 1)).sendHost id "set" [.text label, rule]).Gives world
      fun _ after => after.Equipped id (table.insert label (.captured pattern)) := by
  have hrule : (makePatternRule (.text label) source).Gives world
      fun value after => after = world ∧
        ∃ serial name, value = .patternRule serial name (.text label) source := by
    refine Ends.look label (fun _ => rfl) ?_
    exact Ends.fresh fun serial => Gives.pure ⟨rfl, serial, _, rfl⟩
  refine Gives.bind hrule ?_
  rintro _ _ ⟨rfl, serial, name, rfl⟩
  refine Gives.mono (set_gives hequipped.plain hequipped.ruled label _) ?_
  rintro _ _ ⟨_, rfl⟩
  exact hequipped.setRule ⟨serial, name, _, rfl, htext, hcompiles⟩

/-- What `capture` does once it has a pattern. -/
def enterPattern (kernel : Kernel) (parser : Value) (label : String) (pattern : Pattern) :
    Run Value := do
  setItem (← attributeOf parser "regex") (.text label) (.pattern pattern)
  notify (.patternRule label (Text.quoted pattern.source))
  let rule ← makePatternRule (.text label) (.pattern pattern)
  kernel.send parser "set" [.text label, rule]

theorem enterPattern_gives (hequipped : world.Equipped id table) (label : String)
    {pattern : Pattern} (htext : pattern.binary = false) :
    (enterPattern (Kernel.ofDepth rounds (depth + 1)) (.host id) label pattern).Gives world
      fun _ after => after.Equipped id (table.insert label (.captured pattern)) := by
  let entered := world.changeRecord (.patterns id) fun record =>
    record.write (.text label) (.text label) (.pattern pattern)
  let noticed : World := { entered with
    notices := entered.notices.push (.patternRule label (Text.quoted pattern.source)) }
  have hentered : entered.Equipped id table := hequipped.setPattern _
  have hnoticed : noticed.Equipped id table := hentered.congr rfl
  refine Ends.look _ (attributeOf_look hequipped.patterns rfl) ?_
  refine Ends.change () entered (fun _ => rfl) ?_
  refine Ends.change () noticed (fun _ => rfl) ?_
  exact setPatternRule_gives hnoticed label (Value.compiles_pattern pattern) htext

/-! ### From a matcher to its pattern -/

section Matcher

variable {kernel : Kernel} {parser : Value} {label flags : String} {matcher : Matcher}
  {pattern : Pattern}

theorem isSet_text_look (text : String) (serial : Nat) :
    (isSet (.text text)).outcome (world.withSerial serial) =
      (.ok (text != ""), world.withSerial serial) := by
  have hempty : (!text.isEmpty) = (text != "") := by
    rw [Bool.eq_iff_iff]
    simp
  exact congrArg (fun set => (Except.ok set, world.withSerial serial)) hempty

theorem isCallable_value (matcher : Matcher) : matcher.value.isCallable = false := by
  cases matcher <;> rfl

theorem compile_fails {dialect : Dialect} {source : String} {binary : Bool} {flags : Flags}
    {refusal : Pattern.Refusal}
    (hcompile : Pattern.compile dialect source binary flags = .error refusal) (world : World) :
    ∃ fault, (Run.compile dialect source binary flags).outcome world = (.error fault, world) := by
  rw [Run.compile, hcompile]
  cases refusal with
  | malformed => exact ⟨_, rfl⟩
  | hugeCount => exact ⟨_, rfl⟩
  | twoAlphabets => exact ⟨_, rfl⟩

theorem Matcher.pattern?_source {source : String} :
    (Matcher.source source).pattern? flags = some pattern ↔
      Pattern.compile .extended source false (.ofLetters flags.toList) = .ok pattern := by
  rw [Matcher.pattern?]
  cases Pattern.compile .extended source false (.ofLetters flags.toList) with
  | error refusal => exact ⟨nofun, nofun⟩
  | ok compiled => simp [Except.toOption]

theorem Matcher.pattern?_compiled {compiled : Pattern} :
    (Matcher.compiled compiled).pattern? flags = some pattern ↔
      (compiled.binary = false ∧ flags = "") ∧ compiled = pattern := by
  simp [Matcher.pattern?]

theorem pattern?_binary (hpattern : matcher.pattern? flags = some pattern) :
    pattern.binary = false := by
  cases matcher with
  | source text => exact compile_binary (Matcher.pattern?_source.mp hpattern)
  | compiled compiled =>
      obtain ⟨⟨htext, _⟩, rfl⟩ := Matcher.pattern?_compiled.mp hpattern
      exact htext

/-- A source is compiled under its flags, and nothing else is done to it. -/
theorem capturePattern_source (text flags : String) (world : World) :
    (capturePattern kernel parser label (.text text) (.text flags)).outcome world =
      (Run.compile .extended text false (.ofLetters flags.toList) >>=
        enterPattern kernel parser label).outcome world := by
  have hset : (isSet (.text flags)).outcome world = (.ok (flags != ""), world) :=
    isSet_text_look flags world.serial
  refine (outcome_bind_ok hset).trans ?_
  have hcompile : (compilePattern (.text text) (.text flags)).outcome world =
      (Run.compile .extended text false (.ofLetters flags.toList)).outcome world :=
    outcome_bind_ok (flagLetters_look flags world)
  change (compilePattern (.text text) (.text flags) >>= enterPattern kernel parser label).outcome
    world = _
  rw [outcome_bind, outcome_bind, hcompile]

/-- A compiled pattern is taken as it is. -/
theorem capturePattern_compiled {compiled : Pattern} (htext : compiled.binary = false)
    (world : World) :
    (capturePattern kernel parser label (.pattern compiled) (.text flags)).outcome world =
      if flags = "" then (enterPattern kernel parser label compiled).outcome world
      else (.error (.flagsNeedSource label), world) := by
  have hset : (isSet (.text flags)).outcome world = (.ok (flags != ""), world) :=
    isSet_text_look flags world.serial
  have hmatcher : isTextPattern (.pattern compiled) = true := by simp [isTextPattern, htext]
  simp only [capturePattern, hmatcher, Bool.not_true, Bool.false_eq_true, if_false]
  refine (outcome_bind_ok hset).trans ?_
  by_cases hflags : flags = ""
  · subst hflags
    rfl
  · rw [if_neg hflags, bne_iff_ne.mpr hflags]
    rfl

theorem capturePattern_taken (hpattern : matcher.pattern? flags = some pattern) (world : World) :
    (capturePattern kernel parser label matcher.value (.text flags)).outcome world =
      (enterPattern kernel parser label pattern).outcome world := by
  cases matcher with
  | source text =>
      refine (capturePattern_source text flags world).trans ?_
      rw [Run.compile, Matcher.pattern?_source.mp hpattern]
      rfl
  | compiled compiled =>
      obtain ⟨⟨htext, hflags⟩, rfl⟩ := Matcher.pattern?_compiled.mp hpattern
      exact (capturePattern_compiled htext world).trans (if_pos hflags)

/-- A matcher that comes to no pattern is refused before anything changes. -/
theorem capturePattern_refused (hpattern : matcher.pattern? flags = none) (world : World) :
    ∃ fault, (capturePattern kernel parser label matcher.value (.text flags)).outcome world =
      (.error fault, world) := by
  have hnone : ∀ pattern, matcher.pattern? flags ≠ some pattern := by simp [hpattern]
  cases matcher with
  | source text =>
      cases hcompile : Pattern.compile .extended text false (.ofLetters flags.toList) with
      | ok compiled => exact absurd (Matcher.pattern?_source.mpr hcompile) (hnone compiled)
      | error refusal =>
          obtain ⟨fault, hfault⟩ := compile_fails hcompile world
          refine ⟨fault, (capturePattern_source text flags world).trans ?_⟩
          rw [outcome_bind, hfault]
  | compiled compiled =>
      cases hbinary : compiled.binary with
      | true =>
          have hmatcher : isTextPattern (.pattern compiled) = false := by
            simp [isTextPattern, hbinary]
          simp only [capturePattern, Matcher.value, hmatcher, Bool.not_false, if_true]
          exact ⟨_, rfl⟩
      | false =>
          have hflags : flags ≠ "" := fun hempty =>
            hnone compiled (Matcher.pattern?_compiled.mpr ⟨⟨hbinary, hempty⟩, rfl⟩)
          exact ⟨_, (capturePattern_compiled hbinary world).trans (if_neg hflags)⟩

end Matcher

section Capture

variable {given : Capture}

theorem sendCapture_ends {post : Except Fault Value → World → Prop}
    (hequipped : world.Equipped id table)
    (hrun : (capture (Kernel.ofDepth rounds (depth + 1)) (.host id) (.text given.label)
      given.matcher.value (.text given.flags)).Ends world post) :
    ((Registration.capture given).run (Kernel.ofDepth rounds (depth + 3)) id).Ends world post := by
  obtain ⟨serial, hmember⟩ := hequipped.capture
  exact Ends.look (.bound serial id .captureRule) (attributeOf_look hmember rfl) hrun

theorem capture_start {post : Except Fault Value → World → Prop} (kernel : Kernel)
    (hlabel : given.label ≠ "")
    (hrun : (capturePattern kernel (.host id) given.label given.matcher.value
      (.text given.flags)).Ends world post) :
    (capture kernel (.host id) (.text given.label) given.matcher.value (.text given.flags)).Ends
      world post := by
  refine Ends.look _ (isSet_text_look given.label) ?_
  rw [bne_iff_ne.mpr hlabel, isCallable_value]
  exact hrun

/-- A capture that comes to a pattern registers it. -/
theorem capture_run_gives (hequipped : world.Equipped id table) {pattern : Pattern}
    (hpattern : given.pattern? = some pattern) :
    (capture (Kernel.ofDepth rounds (depth + 1)) (.host id) (.text given.label)
      given.matcher.value (.text given.flags)).Gives world
      fun _ after => after.Equipped id (table.insert given.label (.captured pattern)) := by
  rw [Capture.pattern?] at hpattern
  split at hpattern
  next => cases hpattern
  next hlabel =>
    refine capture_start _ hlabel fun serial => ?_
    rw [capturePattern_taken hpattern]
    exact enterPattern_gives hequipped given.label (pattern?_binary hpattern) serial

theorem capture_gives (hequipped : world.Equipped id table) {pattern : Pattern}
    (hpattern : given.pattern? = some pattern) :
    ((Registration.capture given).run (Kernel.ofDepth rounds (depth + 3)) id).Gives world
      fun _ after => after.Equipped id (table.insert given.label (.captured pattern)) :=
  sendCapture_ends hequipped (capture_run_gives hequipped hpattern)

/-- Nothing is captured under the empty label. -/
theorem capture_unlabelled_fails (hequipped : world.Equipped id table)
    (hlabel : given.label = "") :
    ((Registration.capture given).run (Kernel.ofDepth rounds (depth + 3)) id).Fails world
      fun fault after => fault = .badRuleName (Text.quoted "") ∧ after = world := by
  refine sendCapture_ends hequipped ?_
  refine Ends.look _ (isSet_text_look given.label) ?_
  rw [hlabel]
  refine Ends.look (Text.quoted "") (fun _ => rfl) ?_
  exact Fails.fail ⟨rfl, rfl⟩

/-- A capture that comes to no pattern is refused before anything changes. -/
theorem capture_fails (hequipped : world.Equipped id table) (hpattern : given.pattern? = none) :
    ((Registration.capture given).run (Kernel.ofDepth rounds (depth + 3)) id).Fails world
      fun _ after => after = world := by
  rw [Capture.pattern?] at hpattern
  split at hpattern
  next hlabel =>
    refine Fails.mono (capture_unlabelled_fails hequipped hlabel) ?_
    rintro _ _ ⟨-, hafter⟩
    exact hafter
  next hlabel =>
    refine sendCapture_ends hequipped (capture_start _ hlabel fun serial => ?_)
    obtain ⟨fault, hfault⟩ := capturePattern_refused hpattern (world.withSerial serial)
    exact ⟨_, world, serial, hfault, fault, rfl, rfl⟩

end Capture

/-! ## One after another -/

/-- A registration changes the table as it says, or is refused. -/
theorem Registration.run_ends (hequipped : world.Equipped id table) (registration : Registration) :
    (registration.run (Kernel.ofDepth rounds (depth + 3)) id).Ends world
      fun _ after => after.Equipped id (registration.enter table) := by
  cases registration with
  | set label name body =>
      refine Ends.mono (set_run_gives hequipped label name body) ?_
      rintro _ after ⟨_, _, hafter⟩
      exact hafter
  | capture given =>
      rw [Registration.enter]
      cases hpattern : given.pattern? with
      | none =>
          refine Ends.mono (capture_fails hequipped hpattern) ?_
          rintro _ _ ⟨_, _, rfl⟩
          exact hequipped
      | some pattern =>
          refine Ends.mono (capture_gives hequipped hpattern) ?_
          rintro _ after ⟨_, _, hafter⟩
          exact hafter

theorem registerAll_gives (hequipped : world.Equipped id table)
    (registrations : List Registration) :
    (registerAll (Kernel.ofDepth rounds (depth + 3)) id registrations).Gives world
      fun _ after => after.Equipped id (registrations.foldl Registration.enter table) := by
  induction registrations generalizing world table with
  | nil => exact Gives.pure hequipped
  | cons registration rest ih =>
      refine Gives.bind (registration.run_ends hequipped).observe ?_
      intro _ world hafter
      exact ih hafter

/-! ## A new parser -/

/-- The world with a new parser that nothing was registered on. -/
def World.addParser (world : World) : World :=
  let id := world.hosts.size
  (world.addHost { Host.bare .parser with
    options := some (.record (.options id)), rules := some (.record (.rules id))
    patterns := some (.record (.patterns id)) }).restart id (.text "")

/-- The world with `capture` installed on a parser. -/
def World.addCapture (world : World) (id : HostId) (serial : Nat) : World :=
  world.changeHost id fun host => host.setAttribute "capture" (.bound serial id .captureRule)

theorem World.host_addParser :
    world.addParser.host world.hosts.size =
      { Host.bare .parser with
        options := some (.record (.options world.hosts.size))
        rules := some (.record (.rules world.hosts.size))
        patterns := some (.record (.patterns world.hosts.size))
        input := some (.text ""), cursor := some .start, root := some (.node world.forest.size)
        stack := some (.list (.stack world.openStacks.size)) } := by
  rw [World.addParser, host_restart, host_addHost, if_pos rfl]
  · rfl
  · simp [addHost]

theorem World.hosts_addParser : world.hosts.size < world.addParser.hosts.size := by
  simp [addParser, restart, changeHost, addHost]

theorem World.plain_addParser : world.addParser.Plain world.hosts.size where
  present := hosts_addParser
  hostClass := by rw [host_addParser]; rfl
  members _ := by rw [host_addParser]; rfl

theorem World.equipped_addCapture (serial : Nat) :
    (world.addParser.addCapture world.hosts.size serial).Equipped world.hosts.size .empty := by
  have hhost : (world.addParser.addCapture world.hosts.size serial).host world.hosts.size =
      (world.addParser.host world.hosts.size).setAttribute "capture"
        (.bound serial world.hosts.size .captureRule) := by
    rw [addCapture, host_changeHost, if_pos ⟨rfl, hosts_addParser⟩]
  rw [host_addParser] at hhost
  refine
    { plain :=
        { present := ?_
          hostClass := by rw [hhost]; rfl
          members := fun method => ?_ }
      ruled :=
        { rules := by rw [hhost]; rfl
          entries := by rw [hhost]; exact .nil
          nodup := .nil }
      patterns := by rw [hhost]; rfl
      capture := ⟨serial, by rw [hhost]; rfl⟩ }
  · simpa [addCapture, changeHost] using hosts_addParser
  · rw [hhost]
    cases method <;> rfl

theorem newParser_outcome :
    (newParser .parser .null).outcome world = (.ok world.hosts.size, world.addParser) := rfl

/-- The world with a new parser that `capture` is installed on. -/
def World.addEquipped (world : World) : World :=
  { world.addParser.addCapture world.hosts.size (world.serial + 1) with
    notices := world.notices.push (.installed .parser), serial := world.serial + 2 }

theorem define_capture_outcome (hplain : world.Plain id) :
    ((Kernel.ofDepth rounds (depth + 1)).sendHost id "define"
        [.text "capture", .captureRule]).outcome world =
      (.ok (.host id), (world.addCapture id (world.serial + 1)).withSerial (world.serial + 2)) :=
  sendHost_run_outcome hplain rounds depth .define rfl

theorem install_outcome :
    (install (Kernel.ofDepth rounds (depth + 1)) (.host world.hosts.size) .null).outcome
      world.addParser = (.ok .null, world.addEquipped) := by
  have hkinds : world.addParser.kindsOf (.host world.hosts.size) = [.parser] := by
    rw [World.kindsOf, World.host_addParser]
    rfl
  have hkind : (resolveKind (.host world.hosts.size) .null).outcome world.addParser =
      (.ok .parser, world.addParser) := by
    refine (outcome_bind_ok (outcome_get _)).trans ?_
    rw [hkinds]
    rfl
  refine (outcome_bind_ok hkind).trans ?_
  exact outcome_bind_ok (define_capture_outcome World.plain_addParser)

theorem newParser_gives :
    (newParser .parser .null).Gives world fun id after =>
      id = world.hosts.size ∧ after = world.addParser :=
  fun serial => ⟨_, world.addParser, serial, newParser_outcome, _, rfl, rfl, rfl⟩

theorem install_gives :
    (install (Kernel.ofDepth rounds (depth + 1)) (.host world.hosts.size) .null).Gives
      world.addParser fun _ after => after.Equipped world.hosts.size .empty := by
  intro serial
  let equipped := (world.withSerial serial).addEquipped
  refine ⟨_, equipped, equipped.serial, @install_outcome (world.withSerial serial) _ _, _, rfl, ?_⟩
  exact (World.equipped_addCapture (serial + 1)).congr rfl

/-- Registering on a new parser never fails, and leaves the table of what was registered. -/
theorem newEquipped_gives (registrations : List Registration) :
    (newEquipped (Kernel.ofDepth rounds (depth + 3)) registrations).Gives world
      fun id after => after.Equipped id (registered registrations) := by
  refine Gives.bind newParser_gives ?_
  rintro _ _ ⟨rfl, rfl⟩
  refine Gives.bind install_gives ?_
  intro _ between hequipped
  refine Gives.bind (registerAll_gives hequipped registrations) ?_
  intro _ after hafter
  exact Gives.pure hafter

/-- A text is read as its rules go on from the beginning. -/
theorem parseWith_gives {registrations : List Registration} {text : String}
    (ending : Nat → Nat → Ending)
    (hgoes : ∀ id root stack, Goes (Kernel.ofDepth rounds (depth + 1)) id
      (registered registrations) (.start text root stack) (ending root stack))
    (hrounds : text.toList.length < rounds) :
    (parseWith (Kernel.ofDepth rounds (depth + 3)) registrations text).Gives world
      fun found after => ∃ root stack, found.2 = (ending root stack).result ∧
        ∀ stage ∈ (ending root stack).stage?,
          after.Parses found.1 (registered registrations) stage := by
  refine Gives.bind (newEquipped_gives registrations) ?_
  intro id between hequipped
  have hparse := parse_ends hequipped.plain hequipped.ruled (hgoes id _ _) hrounds
  refine Gives.bind hparse.observe ?_
  rintro result after ⟨hresult, hafter⟩
  exact Gives.pure ⟨_, _, hresult, hafter⟩

end Rulebook
