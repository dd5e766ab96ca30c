import Rulebook.Proofs.Tokenizer

/-!
# Ways of registering a pattern

The source of a pattern, with letters for its flags, comes to a rule in several ways: it is captured
as it is, or compiled and then captured, or made a rule by hand that is set, before it is compiled
or after. Letters count by which of them there are, so their order, their repetition and letters
that name no flag make no difference. Whichever way each of several sources takes, the parser comes
to the same rules, and every text is read alike.
-/

namespace Rulebook

open Run

/-! ## Letters of flags -/

namespace Flags

/-- The letters that name flags. -/
def known : List Char := ['i', 'm', 's', 'x', 'A']

/-- The flags that a test on letters selects. -/
def selected (holds : Char → Bool) : Flags where
  ignoreCase := holds 'i'
  multiline := holds 'm'
  dotAll := holds 's'
  verbose := holds 'x'
  ascii := holds 'A'

theorem selected_congr {holds holds' : Char → Bool}
    (hsame : ∀ letter ∈ known, holds letter = holds' letter) :
    selected holds = selected holds' := by
  simp only [known, List.forall_mem_cons] at hsame
  obtain ⟨hi, hm, hs, hx, hA, -⟩ := hsame
  rw [selected, selected, hi, hm, hs, hx, hA]

theorem union_selected (holds holds' : Char → Bool) :
    (selected holds).union (selected holds') =
      selected fun letter => holds letter || holds' letter := rfl

theorem ofLetter_eq (char : Char) : ofLetter char = selected fun letter => letter == char := by
  rw [ofLetter.eq_def]
  split
  next => rfl
  next => rfl
  next => rfl
  next => rfl
  next => rfl
  next hi hm hs hx hA =>
    simp [selected, none, Ne.symm hi, Ne.symm hm, Ne.symm hs, Ne.symm hx, Ne.symm hA]

/-- Letters set the flags that they name, each of them once. -/
theorem ofLetters_eq (letters : List Char) : ofLetters letters = selected letters.contains := by
  have hfold : ∀ holds : Char → Bool,
      letters.foldl (fun flags letter => flags.union (ofLetter letter)) (selected holds) =
        selected fun letter => holds letter || letters.contains letter := by
    induction letters with
    | nil => intro holds; simp
    | cons char rest ih =>
        intro holds
        rw [List.foldl_cons, ofLetter_eq, union_selected, ih]
        simp only [List.contains_cons, Bool.or_assoc]
  exact (hfold fun _ => false).trans (selected_congr fun _ _ => Bool.false_or _)

/-- Two texts of letters have the same ones among those that name flags. -/
def SameLetters (flags flags' : String) : Prop :=
  ∀ letter ∈ known, letter ∈ flags.toList ↔ letter ∈ flags'.toList

theorem SameLetters.of_all {flags flags' : String}
    (hall : (known.all fun letter =>
      flags.toList.contains letter == flags'.toList.contains letter) = true) :
    SameLetters flags flags' := by
  intro letter hmem
  have hsame := List.all_eq_true.mp hall letter hmem
  rwa [beq_iff_eq, Bool.eq_iff_iff, List.contains_iff_mem, List.contains_iff_mem] at hsame

/-- Order, repetition and unknown letters do not count. -/
theorem SameLetters.ofLetters_eq {flags flags' : String} (hsame : SameLetters flags flags') :
    ofLetters flags.toList = ofLetters flags'.toList := by
  rw [Flags.ofLetters_eq, Flags.ofLetters_eq]
  refine selected_congr fun letter hmem => ?_
  rw [Bool.eq_iff_iff, List.contains_iff_mem, List.contains_iff_mem]
  exact hsame letter hmem

end Flags

/-! ## Sources and their ways -/

/-- A source to be registered under a label, with letters for its flags. -/
structure PatternSource where
  label : String
  text : String
  flags : String

namespace PatternSource

/-- A source compiles to a pattern under its flags. -/
def Compiles (source : PatternSource) (pattern : Pattern) : Prop :=
  Pattern.compile .extended source.text false (.ofLetters source.flags.toList) = .ok pattern

/-- The pattern that a source compiles to. -/
def pattern? (source : PatternSource) : Option Pattern :=
  (Pattern.compile .extended source.text false (.ofLetters source.flags.toList)).toOption

theorem pattern?_eq_some {source : PatternSource} {pattern : Pattern} :
    source.pattern? = some pattern ↔ source.Compiles pattern := Matcher.pattern?_source

/-- Compiles a source under its flags. -/
def compile (kernel : Kernel) (source : PatternSource) : Run Value :=
  Function.compilePattern.apply kernel [.text source.text, .text source.flags]

/-- The patterns after one more is registered. -/
def enter (patterns : Table String Pattern) (source : PatternSource) : Table String Pattern :=
  source.pattern?.elim patterns (patterns.insert source.label)

/-- The patterns that are registered from the first to the last. -/
def entered (sources : List PatternSource) : Table String Pattern := sources.foldl enter .empty

end PatternSource

/-- A way of registering a source. -/
inductive Route
  /-- The source is captured with letters for flags. -/
  | captureSource (flags : String)
  /-- The pattern is captured that the source compiles to. -/
  | capturePattern
  /-- A rule made from the compiled pattern is set. -/
  | setPattern
  /-- A rule made from the source itself is set, and compiles it at each match. -/
  | setSource

namespace Route

/-- Registers a source on a parser. -/
def register (kernel : Kernel) (id : HostId) (source : PatternSource) : Route → Run Value
  | .captureSource flags =>
    kernel.sendHost id "capture" [.text source.label, .text source.text, .text flags]
  | .capturePattern => do
    let pattern ← source.compile kernel
    kernel.sendHost id "capture" [.text source.label, pattern]
  | .setPattern => do
    let pattern ← source.compile kernel
    let rule ← Function.patternRule.apply kernel [.text source.label, pattern]
    kernel.sendHost id "set" [.text source.label, rule]
  | .setSource => do
    let rule ← Function.patternRule.apply kernel [.text source.label, .text source.text]
    kernel.sendHost id "set" [.text source.label, rule]

/-- A way is open to a source. Only what has a label that is not empty can be captured, under any
letters for the same flags, and a rule made from the source itself has no flags. -/
inductive Suits (source : PatternSource) : Route → Prop
  | captureSource {flags : String} (hlabel : source.label ≠ "")
      (hflags : Flags.SameLetters flags source.flags) : Suits source (.captureSource flags)
  | capturePattern (hlabel : source.label ≠ "") : Suits source .capturePattern
  | setPattern : Suits source .setPattern
  | setSource (hflags : Flags.SameLetters source.flags "") : Suits source .setSource

end Route

/-- Registers sources one after another, each in its way. -/
def registerRouted (kernel : Kernel) (id : HostId) : List (PatternSource × Route) → Run Unit
  | [] => return ()
  | (source, route) :: rest => do
    let _ ← route.register kernel id source
    registerRouted kernel id rest

/-- Registers sources on a new parser and reads a text with it. What the parse gave can be a
fault; a registration that fails is a fault of the whole. -/
def parseRouted (kernel : Kernel) (routed : List (PatternSource × Route)) (text : String) :
    Run (Except Fault Value) := do
  let id ← Run.newParser .parser .null
  let _ ← install kernel (.host id) .null
  registerRouted kernel id routed
  Run.observe (kernel.sendHost id "parse" [.text text])

/-! ## Every way leads to the same rule -/

section Route

variable {world : World} {id : HostId} {table : Table String Rule} {rounds depth : Nat}
  {source : PatternSource} {pattern : Pattern}

theorem PatternSource.compile_look (hcompiles : source.Compiles pattern) (kernel : Kernel)
    (world : World) : (source.compile kernel).outcome world = (.ok (.pattern pattern), world) := by
  have hcompile : (Run.compile .extended source.text false
      (.ofLetters source.flags.toList)).outcome world = (.ok pattern, world) := by
    rw [Run.compile, hcompiles]
    rfl
  have houtcome : (compilePattern (.text source.text) (.text source.flags)).outcome world =
      (.ok pattern, world) :=
    (outcome_bind_ok (flagLetters_look source.flags world)).trans hcompile
  exact outcome_bind_ok houtcome

/-- Without letters for flags a capture of a compiled pattern is one with the empty text. -/
theorem capturePattern_gives (hequipped : world.Equipped id table) (hlabel : source.label ≠ "")
    (htext : pattern.binary = false) :
    ((Kernel.ofDepth rounds (depth + 3)).sendHost id "capture"
      [.text source.label, .pattern pattern]).Gives world
      fun _ after => after.Equipped id (table.insert source.label (.captured pattern)) := by
  obtain ⟨serial, hmember⟩ := hequipped.capture
  have hpattern : Capture.pattern? ⟨source.label, .compiled pattern, ""⟩ = some pattern := by
    simp [Capture.pattern?, hlabel, Matcher.pattern?, htext]
  exact Ends.look (.bound serial id .captureRule) (attributeOf_look hmember rfl)
    (capture_run_gives hequipped hpattern)

/-- In whatever way a source is registered, its pattern stands under its label afterwards. -/
theorem Route.register_gives {route : Route} (hsuits : route.Suits source)
    (hcompiles : source.Compiles pattern) (hequipped : world.Equipped id table) :
    (route.register (Kernel.ofDepth rounds (depth + 3)) id source).Gives world
      fun _ after => after.Equipped id (table.insert source.label (.captured pattern)) := by
  have htext := compile_binary hcompiles
  have hlook := fun serial =>
    PatternSource.compile_look hcompiles (Kernel.ofDepth rounds (depth + 3))
      (world.withSerial serial)
  cases hsuits with
  | @captureSource flags hlabel hflags =>
      have hpattern : Capture.pattern? ⟨source.label, .source source.text, flags⟩ =
          some pattern := by
        rw [PatternSource.Compiles] at hcompiles
        simp only [Capture.pattern?, if_neg hlabel, Matcher.pattern?, hflags.ofLetters_eq,
          hcompiles, Except.toOption]
      change ((Registration.capture ⟨source.label, .source source.text, flags⟩).run
        (Kernel.ofDepth rounds (depth + 3)) id).Gives world _
      exact capture_gives hequipped hpattern
  | capturePattern hlabel =>
      exact Ends.look _ hlook (capturePattern_gives hequipped hlabel htext)
  | setPattern =>
      exact Ends.look _ hlook
        (setPatternRule_gives hequipped source.label (Value.compiles_pattern pattern) htext)
  | setSource hflags =>
      have hsource : (Value.text source.text).Compiles pattern := by
        have hnone : Flags.ofLetters source.flags.toList = .ofLetters [] := hflags.ofLetters_eq
        rw [PatternSource.Compiles, hnone] at hcompiles
        exact Value.compiles_text hcompiles
      exact setPatternRule_gives hequipped source.label hsource htext

theorem PatternSource.enter_map (hcompiles : source.Compiles pattern)
    (patterns : Table String Pattern) :
    (patterns.map Rule.captured).insert source.label (.captured pattern) =
      (source.enter patterns).map Rule.captured := by
  rw [PatternSource.enter, PatternSource.pattern?_eq_some.mpr hcompiles, Option.elim_some,
    Table.map_insert]

theorem registerRouted_gives {routed : List (PatternSource × Route)}
    {patterns : Table String Pattern} (hsuits : ∀ one ∈ routed, one.2.Suits one.1)
    (hcompiles : ∀ source ∈ routed.map Prod.fst, ∃ pattern, source.Compiles pattern)
    (hequipped : world.Equipped id (patterns.map Rule.captured)) :
    (registerRouted (Kernel.ofDepth rounds (depth + 3)) id routed).Gives world
      fun _ after => after.Equipped id
        (((routed.map Prod.fst).foldl PatternSource.enter patterns).map .captured) := by
  induction routed generalizing world patterns with
  | nil => exact Gives.pure hequipped
  | cons one rest ih =>
      obtain ⟨source, route⟩ := one
      obtain ⟨pattern, hpattern⟩ := hcompiles source List.mem_cons_self
      refine Gives.bind (Route.register_gives (hsuits _ List.mem_cons_self) hpattern hequipped) ?_
      intro _ world hafter
      rw [PatternSource.enter_map hpattern] at hafter
      exact ih (fun one hmem => hsuits one (List.mem_cons_of_mem _ hmem))
        (fun source hmem => hcompiles source (List.mem_cons_of_mem _ hmem)) hafter

end Route

/-! ## Reading a text -/

/-- What came of a parse: a root with a tree below it, or a fault. -/
def World.CameOf (world : World) (result : Except Fault Value) : Except Fault Tree → Prop
  | .ok tree => ∃ root, result = .ok (.node root) ∧ world.Holds .null root tree
  | .error fault => result = .error fault

/-- What comes of reading a text with some patterns: the tokens below the root, or a complaint about
the first character that none begins at. -/
def outcomeOf (patterns : Table String Pattern) (text : String) : Except Fault Tree :=
  match tokens patterns text.toList with
  | (taken, []) => .ok (.node ⟨"root", [], none⟩ (tiles .start taken))
  | (taken, char :: _) =>
    .error ((Stage.afterAll ⟨text, .start, 0, 0⟩ .root taken).complaint char)

section Parse

variable {world : World} {id : HostId} {patterns : Table String Pattern} {rounds depth : Nat}
  {text : String} {routed : List (PatternSource × Route)}

theorem parse_cameOf (hequipped : world.Equipped id (patterns.map Rule.captured))
    (hrounds : text.toList.length < rounds) :
    ((Kernel.ofDepth rounds (depth + 7)).sendHost id "parse" [.text text]).Ends world
      fun result after => after.CameOf result (outcomeOf patterns text) := by
  have hnodup : patterns.keys.Nodup := by
    rw [← Table.keys_map Rule.captured]
    exact hequipped.ruled.nodup
  have hgoes : Goes (Kernel.ofDepth rounds (depth + 5)) id (patterns.map Rule.captured)
      (.start text world.forest.size world.openStacks.size)
      (tokensEnding ⟨text, .start, world.forest.size, world.openStacks.size⟩ .root
        (tokens patterns text.toList)) :=
    goes_tokens hnodup rfl
  refine Ends.mono (parse_ends hequipped.plain hequipped.ruled hgoes hrounds) ?_
  rintro result after ⟨hresult, hafter⟩
  rw [outcomeOf]
  rcases htokens : tokens patterns text.toList with ⟨taken, _ | ⟨char, rest⟩⟩
  · rw [htokens] at hresult hafter
    exact ⟨_, hresult, (hafter _ rfl).grows.holds⟩
  · rw [htokens] at hresult
    exact hresult

theorem parseRouted_gives (hsuits : ∀ one ∈ routed, one.2.Suits one.1)
    (hcompiles : ∀ source ∈ routed.map Prod.fst, ∃ pattern, source.Compiles pattern)
    (hrounds : text.toList.length < rounds) :
    (parseRouted (Kernel.ofDepth rounds (depth + 7)) routed text).Gives world
      fun result after =>
        after.CameOf result (outcomeOf (PatternSource.entered (routed.map Prod.fst)) text) := by
  refine Gives.bind newParser_gives ?_
  rintro _ _ ⟨rfl, rfl⟩
  refine Gives.bind install_gives ?_
  intro _ between hequipped
  have hempty : between.Equipped world.hosts.size (Table.empty.map Rule.captured) := hequipped
  refine Gives.bind (registerRouted_gives hsuits hcompiles hempty) ?_
  intro _ after hafter
  exact (parse_cameOf hafter hrounds).observe

/-- For sources that compile there is one outcome of reading a text, which comes of every choice of
ways that are open to them. Ways of capturing are open to what has a label that is not empty. -/
theorem routes_agree {sources : List PatternSource}
    (hcompiles : ∀ source ∈ sources, ∃ pattern, source.Compiles pattern)
    (hrounds : text.toList.length < rounds) (depth : Nat) :
    ∃ outcome : Except Fault Tree, ∀ (routed : List (PatternSource × Route)) (world : World),
      routed.map Prod.fst = sources → (∀ one ∈ routed, one.2.Suits one.1) →
      (parseRouted (Kernel.ofDepth rounds (depth + 7)) routed text).Gives world
        fun result after => after.CameOf result outcome := by
  refine ⟨outcomeOf (PatternSource.entered sources) text, ?_⟩
  rintro routed world rfl hsuits
  exact parseRouted_gives hsuits hcompiles hrounds

end Parse

/-- Words under a flag, and slashes. -/
def wordSlash : List PatternSource := [⟨"word", "^[a-z]+", "is"⟩, ⟨"slash", "^/", "?"⟩]

/-- One choice of ways, and another one. -/
def wordSlashRoutes (one other : Route) : List (PatternSource × Route) :=
  [(⟨"word", "^[a-z]+", "is"⟩, one), (⟨"slash", "^/", "?"⟩, other)]

theorem compiles_wordSlash : ∀ source ∈ wordSlash, ∃ pattern, source.Compiles pattern := by
  have hsome : ∀ source ∈ wordSlash, source.pattern?.isSome = true := by decide +kernel
  intro source hmem
  obtain ⟨pattern, hpattern⟩ := Option.isSome_iff_exists.mp (hsome source hmem)
  exact ⟨pattern, PatternSource.pattern?_eq_some.mp hpattern⟩

/-- The letters of a flag come in another order, one of them twice, and among unknown ones. -/
theorem routes_agree_word_slash :
    (∀ source ∈ wordSlash, ∃ pattern, source.Compiles pattern) ∧ "Ab/".toList.length < 4 ∧
      (∀ one ∈ wordSlashRoutes (.captureSource "s?isq") .setSource, one.2.Suits one.1) ∧
      (∀ one ∈ wordSlashRoutes .setPattern .capturePattern, one.2.Suits one.1) ∧
      ∃ outcome,
        (parseRouted (Kernel.ofDepth 4 7) (wordSlashRoutes (.captureSource "s?isq") .setSource)
          "Ab/").Gives .start (fun result after => after.CameOf result outcome) ∧
        (parseRouted (Kernel.ofDepth 4 7) (wordSlashRoutes .setPattern .capturePattern)
          "Ab/").Gives .start fun result after => after.CameOf result outcome := by
  have hrounds : "Ab/".toList.length < 4 := by decide
  have hsame : Flags.SameLetters "s?isq" "is" := .of_all (by decide)
  have hnone : Flags.SameLetters "?" "" := .of_all (by decide)
  have hone : ∀ one ∈ wordSlashRoutes (.captureSource "s?isq") .setSource, one.2.Suits one.1 :=
    List.forall_mem_cons.mpr ⟨.captureSource (by decide) hsame,
      List.forall_mem_singleton.mpr (.setSource hnone)⟩
  have hother : ∀ one ∈ wordSlashRoutes .setPattern .capturePattern, one.2.Suits one.1 :=
    List.forall_mem_cons.mpr ⟨.setPattern,
      List.forall_mem_singleton.mpr (.capturePattern (by decide))⟩
  obtain ⟨outcome, hagree⟩ := routes_agree compiles_wordSlash hrounds 0
  exact ⟨compiles_wordSlash, hrounds, hone, hother, outcome, hagree _ .start rfl hone,
    hagree _ .start rfl hother⟩

/-! ## The empty label -/

/-- A source under the empty label. -/
def unlabelled : PatternSource := ⟨"", "^a", ""⟩

theorem compiles_unlabelled : ∃ pattern, unlabelled.Compiles pattern := by
  have hsome : unlabelled.pattern?.isSome = true := by decide +kernel
  obtain ⟨pattern, hpattern⟩ := Option.isSome_iff_exists.mp hsome
  exact ⟨pattern, PatternSource.pattern?_eq_some.mp hpattern⟩

theorem unlabelled_captured_fails :
    (parseRouted (Kernel.ofDepth 2 7) [(unlabelled, .captureSource "")] "a").Fails .start
      fun fault _ => fault = .badRuleName "''" := by
  refine Gives.bind newParser_gives ?_
  rintro _ _ ⟨rfl, rfl⟩
  refine Gives.bind install_gives ?_
  intro _ between hequipped
  refine Fails.bind (Fails.bind ?_)
  change ((Registration.capture ⟨"", .source "^a", ""⟩).run (Kernel.ofDepth 2 7) _).Fails _ _
  refine Fails.mono (capture_unlabelled_fails hequipped rfl) ?_
  rintro _ _ ⟨rfl, -⟩
  rfl

theorem unlabelled_set_gives :
    (parseRouted (Kernel.ofDepth 2 7) [(unlabelled, .setPattern)] "a").Gives .start
      fun result after => after.CameOf result (.ok (.node ⟨"root", [], none⟩
        [.leaf ⟨"", ['a'], some (⟨1, 1, 0⟩, ⟨1, 2, 1⟩)⟩])) := by
  have htokens :
      tokens (PatternSource.entered ([(unlabelled, Route.setPattern)].map Prod.fst)) "a".toList =
        ([⟨"", ['a'], by decide⟩], []) := by decide +kernel
  have hgives := @parseRouted_gives .start 2 0 "a" [(unlabelled, .setPattern)]
    (List.forall_mem_singleton.mpr .setPattern)
    (List.forall_mem_singleton.mpr compiles_unlabelled) (by decide)
  refine Gives.mono hgives ?_
  intro result after hafter
  rw [outcomeOf, htokens] at hafter
  exact hafter

/-- A capture refuses the empty label, and setting a rule does not, so the ways part there. -/
theorem routes_part_at_empty_label :
    (∃ pattern, unlabelled.Compiles pattern) ∧
      (parseRouted (Kernel.ofDepth 2 7) [(unlabelled, .captureSource "")] "a").Fails .start
        (fun fault _ => fault = .badRuleName "''") ∧
      (parseRouted (Kernel.ofDepth 2 7) [(unlabelled, .setPattern)] "a").Gives .start
        (fun result after => after.CameOf result (.ok (.node ⟨"root", [], none⟩
          [.leaf ⟨"", ['a'], some (⟨1, 1, 0⟩, ⟨1, 2, 1⟩)⟩]))) ∧
      ¬∃ outcome,
        (parseRouted (Kernel.ofDepth 2 7) [(unlabelled, .captureSource "")] "a").Gives .start
          (fun result after => after.CameOf result outcome) ∧
        (parseRouted (Kernel.ofDepth 2 7) [(unlabelled, .setPattern)] "a").Gives .start
          fun result after => after.CameOf result outcome := by
  refine ⟨compiles_unlabelled, unlabelled_captured_fails, unlabelled_set_gives, ?_⟩
  rintro ⟨outcome, hcaptured, -⟩
  obtain ⟨_, _, _, hfails, fault, rfl, -⟩ := unlabelled_captured_fails 0
  obtain ⟨_, _, _, hgives, value, rfl, -⟩ := hcaptured 0
  cases congrArg Prod.fst (hfails.symm.trans hgives)

end Rulebook
