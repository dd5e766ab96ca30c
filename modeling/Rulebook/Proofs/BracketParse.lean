import Rulebook.Proofs.BracketGrammar

/-!
# Parsing brackets

The open nodes of a parse are the brackets that the text read so far leaves open. Reading a forest
therefore puts its trees below the innermost open node and leaves the levels around as they were,
and reading a text that leaves brackets open makes the tree deeper by a level for each.
-/

namespace Rulebook

open Run

/-- The level with further complete trees. -/
def Level.addAll (level : Level) (trees : List Tree) : Level :=
  { level with done := level.done ++ trees }

/-- The levels below the root are those of brackets, the innermost first. -/
inductive LevelsFor : List Bracket → List Level → Prop
  | root (level : Level) : LevelsFor [] [level]
  | deeper {bracket : Bracket} {still : List Bracket} {inner : Level} {outer : List Level}
      (hlabel : inner.heading.label = bracket.kind) (houter : LevelsFor still outer) :
      LevelsFor (bracket :: still) (inner :: outer)

theorem LevelsFor.exists_cons {still : List Bracket} {levels : List Level}
    (hlevels : LevelsFor still levels) : ∃ innermost outer, levels = innermost :: outer := by
  cases hlevels with
  | root level => exact ⟨level, [], rfl⟩
  | @deeper _ _ inner outer _ _ => exact ⟨inner, outer, rfl⟩

variable {rounds depth : Nat} {id : HostId} {grammar : Grammar} {reading : Reading} {level : Level}
  {outer : List Level} {ending : Ending}

/-! ## One character -/

/-- A parse goes on behind a character that moves it. -/
theorem goes_moved {char : Char} {rest : List Char} {mark : Mark} {next : Stage}
    (hrest : reading.input.toList.drop reading.cursor.offset = char :: rest)
    (hmark : grammar.mark? char = some mark)
    (heffect : mark.effect reading level outer char = .moved next)
    (hnext : Goes (Kernel.ofDepth rounds (depth + 5)) id grammar.table next ending) :
    Goes (Kernel.ofDepth rounds (depth + 5)) id grammar.table ⟨reading, level :: outer⟩ ending := by
  have hchar := Reading.getElem?_of_rest hrest
  have htries := @Grammar.tries_mark rounds depth id reading level outer char hchar grammar
  rw [hmark, markEffect, heffect] at htries
  exact .onward (Stage.left_pos hchar) htries hnext

/-! ## Forests -/

section Forest

/-- The leaves that a grammar reads. -/
def Grammar.IsLeaf (grammar : Grammar) (label : String) (char : Char) : Prop :=
  grammar.mark? char = some (.leaf label)

mutual

/-- Reading a nest puts its tree below the innermost open node. -/
theorem goes_nest {rest : List Char} : ∀ {nest : Nest} {reading : Reading} {level : Level}
    {outer : List Level}, nest.Over grammar.brackets grammar.IsLeaf →
    reading.input.toList.drop reading.cursor.offset = nest.render ++ rest →
    Goes (Kernel.ofDepth rounds (depth + 5)) id grammar.table
      ⟨reading.past nest.render, level.add (nest.grown reading.cursor) :: outer⟩ ending →
    Goes (Kernel.ofDepth rounds (depth + 5)) id grammar.table ⟨reading, level :: outer⟩ ending
  | .leaf label char, reading, level, outer, hover, hrest, hgoes => by
      rw [Nest.Over] at hover
      rw [Nest.render] at hrest hgoes
      rw [Nest.grown] at hgoes
      exact goes_moved hrest hover rfl hgoes
  | .pair bracket inside, reading, level, outer, hover, hrest, hgoes => by
      rw [Nest.Over] at hover
      rw [Nest.render] at hrest hgoes
      rw [Nest.grown] at hgoes
      obtain ⟨hbracket, hinside⟩ := hover
      -- the bracket opens a level, what is inside is read into it, and its partner closes it
      have hopening : reading.input.toList.drop reading.cursor.offset =
          [bracket.opening] ++ (Nest.renderAll inside ++ bracket.closing :: rest) := by
        simpa using hrest
      have hwithin := Reading.drop_past hopening
      have hclosing := Reading.drop_past hwithin
      refine goes_moved hopening (Grammar.mark?_opening hbracket) rfl ?_
      refine goes_nests hinside hwithin ?_
      refine goes_moved hclosing (Grammar.mark?_closing hbracket) (if_pos rfl) ?_
      rw [Reading.past_append, Reading.past_append]
      exact hgoes

theorem goes_nests {rest : List Char} : ∀ {nests : List Nest} {reading : Reading} {level : Level}
    {outer : List Level}, Nest.OverAll grammar.brackets grammar.IsLeaf nests →
    reading.input.toList.drop reading.cursor.offset = Nest.renderAll nests ++ rest →
    Goes (Kernel.ofDepth rounds (depth + 5)) id grammar.table
      ⟨reading.past (Nest.renderAll nests),
        level.addAll (Nest.grownAll reading.cursor nests) :: outer⟩ ending →
    Goes (Kernel.ofDepth rounds (depth + 5)) id grammar.table ⟨reading, level :: outer⟩ ending
  | [], reading, level, outer, _, _, hgoes => by
      rw [Nest.renderAll, Nest.grownAll, Level.addAll, List.append_nil] at hgoes
      exact hgoes
  | nest :: nests, reading, level, outer, hover, hrest, hgoes => by
      rw [Nest.OverAll] at hover
      rw [Nest.renderAll] at hrest hgoes
      rw [Nest.grownAll] at hgoes
      rw [List.append_assoc] at hrest
      refine goes_nest hover.1 hrest (goes_nests hover.2 (Reading.drop_past hrest) ?_)
      rw [Reading.past_append]
      rw [Level.addAll, List.append_cons] at hgoes
      exact hgoes

end

end Forest

/-! ## Texts -/

section Text

variable {text : String} {root stack : Nat}

theorem Grammar.exists_leaf {chars : List Char} (hreads : ∀ char ∈ chars, grammar.Reads char) :
    ∀ char ∈ chars, Unbracketed grammar.brackets char → ∃ label, grammar.IsLeaf label char := by
  intro char hmem hchar
  obtain ⟨label, _, _, _, _, _, hmark⟩ := Grammar.mark?_leaf (hreads char hmem) hchar
  exact ⟨label, hmark⟩

/-- Reading a text that leaves brackets open makes the tree deeper by a level for each. -/
theorem goes_leavesOpen {before rest : List Char} {still : List Bracket}
    (hopen : LeavesOpen grammar.brackets before still)
    (hreads : ∀ char ∈ before, grammar.Reads char)
    (hrest : reading.input.toList.drop reading.cursor.offset = before ++ rest) :
    ∃ inner outer, LevelsFor still (inner :: outer) ∧ ∀ id ending,
      Goes (Kernel.ofDepth rounds (depth + 5)) id grammar.table
        ⟨reading.past before, inner :: outer⟩ ending →
      Goes (Kernel.ofDepth rounds (depth + 5)) id grammar.table ⟨reading, [level]⟩ ending := by
  induction hopen generalizing rest with
  | @flat text htext =>
      obtain ⟨forest, hforest, rfl⟩ := htext.exists_forest (Grammar.exists_leaf hreads)
      refine ⟨level.addAll (Nest.grownAll reading.cursor forest), [], .root _, ?_⟩
      exact fun id ending hgoes => goes_nests hforest hrest hgoes
  | @deeper before text bracket still _ hbracket htext ih =>
      have hreads' : ∀ char ∈ text, grammar.Reads char := fun char hchar =>
        hreads char (List.mem_append_right _ (List.mem_cons_of_mem _ hchar))
      obtain ⟨forest, hforest, rfl⟩ := htext.exists_forest (Grammar.exists_leaf hreads')
      rw [List.append_assoc] at hrest
      obtain ⟨innermost, outer, hlevels, hbefore⟩ :=
        ih (fun char hchar => hreads char (List.mem_append_left _ hchar)) hrest
      have hopening : (reading.past before).input.toList.drop (reading.past before).cursor.offset =
          [bracket.opening] ++ (Nest.renderAll forest ++ rest) := Reading.drop_past hrest
      have hwithin := Reading.drop_past hopening
      have hmark := Grammar.mark?_opening hbracket
      let inner := Level.opened (reading.past before) bracket.kind bracket.opening
      let trees := Nest.grownAll ((reading.past before).past [bracket.opening]).cursor forest
      refine ⟨inner.addAll trees, innermost :: outer, .deeper rfl hlevels, ?_⟩
      intro id ending hgoes
      refine hbefore id ending (goes_moved hopening hmark rfl (goes_nests hforest hwithin ?_))
      rw [Reading.past_append, Reading.past_append]
      exact hgoes

/-- A bracket that is not the innermost one open cannot be closed. -/
theorem closing_fails {bracket : Bracket} {still : List Bracket} {levels : List Level}
    (hlevels : LevelsFor still levels) (hknown : bracket ∈ grammar.brackets)
    (hstill : ∀ other ∈ still, other ∈ grammar.brackets) (hhead : still.head? ≠ some bracket) :
    closing bracket.kind reading levels = .failed (.noOpenNode bracket.kind reading.pointer) := by
  -- either the root alone is open, or the innermost bracket is another one
  cases hlevels with
  | root => rfl
  | @deeper other still inner outer hlabel houter =>
      obtain ⟨next, further, rfl⟩ := houter.exists_cons
      refine if_neg fun hkind => hhead ?_
      rw [Grammar.eq_of_kind (hstill other List.mem_cons_self) hknown (hlabel.symm.trans hkind)]
      rfl

/-- A parse fails behind the first mismatch. -/
theorem goes_mismatch {place : Nat} {bracket : Bracket}
    (hmismatch : Mismatch grammar.brackets text.toList place bracket)
    (hreads : ∀ char ∈ text.toList.take place, grammar.Reads char) :
    Goes (Kernel.ofDepth rounds (depth + 5)) id grammar.table (.start text root stack)
      (.failed (.noOpenNode bracket.kind (.ofPlace text.toList (place + 1)))) := by
  obtain ⟨hknown, hcloses, still, hopen, hhead⟩ := hmismatch
  obtain ⟨hplace, hbracket⟩ := List.getElem?_eq_some_iff.mp hcloses
  have htext : text.toList =
      text.toList.take place ++ ([bracket.closing] ++ text.toList.drop (place + 1)) := by
    rw [← hbracket, List.singleton_append, ← List.drop_eq_getElem_cons, List.take_append_drop]
  let start : Reading := ⟨text, .start, root, stack⟩
  have hrest : start.input.toList.drop start.cursor.offset =
    text.toList.take place ++ ([bracket.closing] ++ text.toList.drop (place + 1)) := htext
  obtain ⟨innermost, outer, hlevels, hgoes⟩ := goes_leavesOpen hopen hreads hrest
  refine hgoes id _ ?_
  have hpointer : ((start.past (text.toList.take place)).past [bracket.closing]).pointer =
      .ofPlace text.toList (place + 1) := by
    have hlength : (text.toList.take place ++ [bracket.closing]).length = place + 1 := by
      rw [List.length_append, List.length_take_of_le (Nat.le_of_lt hplace)]
      rfl
    rw [Reading.past_append, ← hlength]
    exact Reading.pointer_ofPlace
      (Reading.cursor_past rfl ((List.append_assoc _ _ _).trans htext.symm))
  have hchar := Reading.getElem?_of_rest (Reading.drop_past hrest)
  have htries := @Grammar.tries_mark rounds depth id _ innermost outer _ hchar grammar
  rw [Grammar.mark?_closing hknown, markEffect, Mark.effect,
    closing_fails hlevels hknown hopen.known hhead, hpointer] at htries
  exact .failed (Stage.left_pos hchar) htries

theorem goes_finished {consumed : List Char} {levels : List Level}
    (hrest : reading.input.toList.drop reading.cursor.offset = consumed) :
    Goes (Kernel.ofDepth rounds (depth + 5)) id grammar.table ⟨reading.past consumed, levels⟩
      (.finished ⟨reading.past consumed, levels⟩) := by
  have hlength := congrArg List.length
    (Reading.drop_past (hrest.trans (List.append_nil consumed).symm))
  rw [List.length_drop] at hlength
  exact .finished hlength

/-- A parse finds the innermost bracket that a text leaves open at its end. -/
theorem goes_unclosed {bracket : Bracket} {still : List Bracket}
    (hopen : LeavesOpen grammar.brackets text.toList (bracket :: still))
    (hreads : ∀ char ∈ text.toList, grammar.Reads char) (root stack : Nat) :
    ∃ ending : Ending, ending.result = .error (.unclosedNode bracket.kind) ∧
      ∀ id, Goes (Kernel.ofDepth rounds (depth + 5)) id grammar.table (.start text root stack)
        ending := by
  let start : Reading := ⟨text, .start, root, stack⟩
  have hrest : start.input.toList.drop start.cursor.offset = text.toList ++ [] :=
    (List.append_nil _).symm
  obtain ⟨innermost, outer, hlevels, hgoes⟩ := goes_leavesOpen hopen hreads hrest
  cases hlevels with
  | deeper hlabel houter =>
      obtain ⟨next, further, rfl⟩ := houter.exists_cons
      refine ⟨.finished ⟨start.past text.toList, innermost :: next :: further⟩, ?_, ?_⟩
      · rw [Ending.result, hlabel]
      · exact fun id => hgoes id _ (goes_finished rfl)

theorem goes_forest {forest : List Nest}
    (hforest : Nest.OverAll grammar.brackets grammar.IsLeaf forest)
    (htext : text.toList = Nest.renderAll forest) :
    Goes (Kernel.ofDepth rounds (depth + 5)) id grammar.table (.start text root stack)
      (.finished ⟨Reading.past ⟨text, .start, root, stack⟩ text.toList,
        [Level.root.addAll (Nest.grownAll .start forest)]⟩) := by
  let start : Reading := ⟨text, .start, root, stack⟩
  have hrest : start.input.toList.drop start.cursor.offset = Nest.renderAll forest ++ [] :=
    htext.trans (List.append_nil _).symm
  refine goes_nests hforest hrest ?_
  rw [← htext]
  exact goes_finished rfl

end Text

/-! ## Parsing -/

/-- What a parse gives by a verdict on the brackets of the text. -/
def Verdict.Fits (text : List Char) (result : Except Fault Value) : Verdict → Prop
  | .nested => ∃ root, result = .ok (.node root)
  | .mismatch place bracket =>
    result = .error (.noOpenNode bracket.kind (.ofPlace text (place + 1)))
  | .unclosed bracket => result = .error (.unclosedNode bracket.kind)

section Parsing

variable {world : World} {text : String}

theorem Grammar.parse_gives (ending : Nat → Nat → Ending)
    (hgoes : ∀ root stack id, Goes (Kernel.ofDepth rounds (depth + 5)) id grammar.table
      (.start text root stack) (ending root stack)) (hrounds : text.toList.length < rounds) :
    (parseWith (Kernel.ofDepth rounds (depth + 7)) grammar.registrations text).Gives world
      fun found after => ∃ root stack, found.2 = (ending root stack).result ∧
        ∀ stage ∈ (ending root stack).stage?, after.Parses found.1 grammar.table stage := by
  rw [← grammar.registered_registrations] at hgoes ⊢
  exact parseWith_gives ending (fun id root stack => hgoes root stack id) hrounds

/-- Reading how a forest is written gives a tree with the trees of the forest below the root. -/
theorem parse_forest_gives {forest : List Nest}
    (hforest : Nest.OverAll grammar.brackets grammar.IsLeaf forest)
    (htext : text.toList = Nest.renderAll forest) (hrounds : text.toList.length < rounds) :
    (parseWith (Kernel.ofDepth rounds (depth + 7)) grammar.registrations text).Gives world
      fun found after => ∃ root, found.2 = .ok (.node root) ∧
        after.Holds .null root (.node ⟨"root", [], none⟩ (Nest.grownAll .start forest)) := by
  refine Gives.mono (Grammar.parse_gives _ (fun _ _ _ => goes_forest hforest htext) hrounds) ?_
  rintro found after ⟨root, stack, hresult, hafter⟩
  exact ⟨root, hresult, (hafter _ rfl).grows.holds⟩

theorem parse_judged_gives {verdict : Verdict}
    (hjudged : Judged grammar.brackets text.toList verdict)
    (hreads : ∀ char ∈ text.toList, grammar.Reads char) (hrounds : text.toList.length < rounds) :
    (parseWith (Kernel.ofDepth rounds (depth + 7)) grammar.registrations text).Gives world
      fun found _ => verdict.Fits text.toList found.2 := by
  cases hjudged with
  | nested htext =>
      obtain ⟨forest, hforest, hrender⟩ := htext.exists_forest (Grammar.exists_leaf hreads)
      refine Gives.mono (parse_forest_gives hforest hrender.symm hrounds) ?_
      rintro found after ⟨root, hresult, _⟩
      exact ⟨root, hresult⟩
  | @mismatch place bracket hmismatch =>
      have hreads' : ∀ char ∈ text.toList.take place, grammar.Reads char :=
        fun char hchar => hreads char (List.mem_of_mem_take hchar)
      refine Gives.mono (Grammar.parse_gives _ (fun _ _ _ => goes_mismatch hmismatch hreads')
        hrounds) ?_
      rintro found after ⟨root, stack, hresult, _⟩
      exact hresult
  | @unclosed bracket still hopen =>
      choose ending hending hgoes using
        @goes_unclosed rounds depth grammar text bracket still hopen hreads
      refine Gives.mono (Grammar.parse_gives ending hgoes hrounds) ?_
      rintro found after ⟨root, stack, hresult, _⟩
      exact hresult.trans (hending root stack)

/-- A grammar of brackets recognizes nested texts. Reading a text of its characters succeeds exactly
if the text is well nested. Otherwise it complains about the first closing bracket that does not
match the innermost open one, behind that bracket; and if there is no such bracket, it complains
about the innermost of those left open. -/
theorem parse_brackets (hreads : ∀ char ∈ text.toList, grammar.Reads char)
    (hrounds : text.toList.length < rounds) :
    (parseWith (Kernel.ofDepth rounds (depth + 7)) grammar.registrations text).Gives world
      fun found _ =>
        ((∃ value, found.2 = .ok value) ↔ WellNested grammar.brackets text.toList) ∧
        (∀ place bracket, Mismatch grammar.brackets text.toList place bracket →
          found.2 = .error (.noOpenNode bracket.kind (.ofPlace text.toList (place + 1)))) ∧
        (¬ WellNested grammar.brackets text.toList →
          (∀ place bracket, ¬ Mismatch grammar.brackets text.toList place bracket) →
          ∃ bracket still, LeavesOpen grammar.brackets text.toList (bracket :: still) ∧
            found.2 = .error (.unclosedNode bracket.kind)) := by
  obtain ⟨verdict, hverdict⟩ := exists_judged grammar.brackets text.toList
  have hall : ∀ other, Judged grammar.brackets text.toList other →
      (parseWith (Kernel.ofDepth rounds (depth + 7)) grammar.registrations text).Gives world
        fun found _ => other.Fits text.toList found.2 :=
    fun other hother => parse_judged_gives hother hreads hrounds
  -- the parse gives one result, which fits every verdict that is right
  refine Gives.mono (Gives.all (hall verdict hverdict) hall) ?_
  rintro ⟨id, result⟩ after ⟨hfits, hright⟩
  refine ⟨⟨?_, fun htext => ?_⟩, fun place bracket hmismatch => ?_, fun hnot hnone => ?_⟩
  · rintro ⟨value, hvalue⟩
    cases hverdict with
    | nested htext => exact htext
    | mismatch => cases hvalue.symm.trans hfits
    | unclosed => cases hvalue.symm.trans hfits
  · obtain ⟨root, hroot⟩ := hright _ (.nested htext)
    exact ⟨_, hroot⟩
  · exact hright _ (.mismatch hmismatch)
  · cases hverdict with
    | nested htext => exact absurd htext hnot
    | mismatch hmismatch => exact absurd hmismatch (hnone _ _)
    | unclosed hopen => exact ⟨_, _, hopen, hfits⟩

end Parsing

/-- Round brackets. -/
def Bracket.round : Bracket := ⟨"round", '(', ')'⟩

/-- Square brackets. -/
def Bracket.square : Bracket := ⟨"square", '[', ']'⟩

/-- The rule that opens a bracket, with the source of a pattern for it. -/
def Role.opensAt (bracket : Bracket) (source : String) : Role :=
  .opens bracket "open" (.datum (.text source))

/-- The rule that closes a bracket, with the source of a pattern for it. -/
def Role.closesAt (bracket : Bracket) (source : String) : Role :=
  .closes bracket "close" (.datum (.text source))

theorem Role.sound_opensAt {bracket : Bracket} {source : String} (label : String)
    (hcompile : Pattern.compile .extended source false (.ofLetters []) =
      .ok (.ofChar source bracket.opening)) : (Role.opensAt bracket source).Sound label :=
  ⟨_, Term.names_source hcompile, Pattern.takesOne_ofChar source bracket.opening⟩

theorem Role.sound_closesAt {bracket : Bracket} {source : String} (label : String)
    (hcompile : Pattern.compile .extended source false (.ofLetters []) =
      .ok (.ofChar source bracket.closing)) : (Role.closesAt bracket source).Sound label :=
  ⟨_, Term.names_source hcompile, Pattern.takesOne_ofChar source bracket.closing⟩

/-- Round and square brackets, and slashes. -/
def Grammar.roundSquare : Grammar where
  brackets := [.round, .square]
  rules :=
    [("open round", .opensAt .round "^\\("), ("close round", .closesAt .round "^\\)"),
      ("open square", .opensAt .square "^\\["), ("close square", .closesAt .square "^\\]"),
      ("slash", .leaf (· == '/') (.source "^/") "")]
  labels := by decide
  kinds := by decide
  chars := by decide
  known := by decide
  opened := by
    intro bracket hbracket
    rcases List.mem_pair.mp hbracket with rfl | rfl
    · exact ⟨"open round", "open", .datum (.text "^\\("), by simp [Role.opensAt]⟩
    · exact ⟨"open square", "open", .datum (.text "^\\["), by simp [Role.opensAt]⟩
  closed := by
    intro bracket hbracket
    rcases List.mem_pair.mp hbracket with rfl | rfl
    · exact ⟨"close round", "close", .datum (.text "^\\)"), by simp [Role.closesAt]⟩
    · exact ⟨"close square", "close", .datum (.text "^\\]"), by simp [Role.closesAt]⟩
  apart := by
    intro label accepts matcher flags hrule char haccepts
    obtain ⟨_, rfl, _⟩ : label = "slash" ∧ accepts = (· == '/') ∧ matcher = .source "^/" ∧
      flags = "" := by simpa [Role.opensAt, Role.closesAt] using hrule
    rw [beq_iff_eq] at haccepts
    subst haccepts
    unfold Unbracketed
    decide
  sound := by
    have hslash : Capture.pattern? ⟨"slash", .source "^/", ""⟩ = some (.ofChar "^/" '/') := by
      decide +kernel
    refine List.forall_mem_cons.mpr ⟨Role.sound_opensAt _ (by decide +kernel), ?_⟩
    refine List.forall_mem_cons.mpr ⟨Role.sound_closesAt _ (by decide +kernel), ?_⟩
    refine List.forall_mem_cons.mpr ⟨Role.sound_opensAt _ (by decide +kernel), ?_⟩
    refine List.forall_mem_cons.mpr ⟨Role.sound_closesAt _ (by decide +kernel), ?_⟩
    exact List.forall_mem_singleton.mpr ⟨_, hslash, Pattern.takesOne_ofChar "^/" '/'⟩

/-- A round bracket does not close a square one, though there is a round one around it. -/
theorem parse_roundSquare_mismatch :
    (∀ char ∈ "([)]".toList, Grammar.roundSquare.Reads char) ∧ "([)]".toList.length < 5 ∧
      (parseWith (Kernel.ofDepth 5 7) Grammar.roundSquare.registrations "([)]").Gives .start
        fun found _ => found.2 = .error (.noOpenNode "round" (.ofPlace "([)]".toList 3)) := by
  have hreads : ∀ char ∈ "([)]".toList, Grammar.roundSquare.Reads char := by
    have htext : "([)]".toList = ['(', '[', ')', ']'] := rfl
    rw [htext]
    simp [Grammar.Reads, Grammar.roundSquare, Role.opensAt, Role.closesAt, Role.accepts,
      Bracket.round, Bracket.square]
  have hrounds : "([)]".toList.length < 5 := by decide
  have hmismatch : Mismatch Grammar.roundSquare.brackets "([)]".toList 2 .round := by
    have hround : Bracket.round ∈ Grammar.roundSquare.brackets := List.mem_cons_self
    have hsquare : Bracket.square ∈ Grammar.roundSquare.brackets :=
      List.mem_cons_of_mem _ List.mem_cons_self
    have hopen : LeavesOpen Grammar.roundSquare.brackets ['('] [.round] :=
      .deeper (.flat .nil) hround .nil
    exact ⟨hround, rfl, _, .deeper hopen hsquare .nil, by decide⟩
  refine ⟨hreads, hrounds, Gives.mono (parse_brackets hreads hrounds) ?_⟩
  rintro found after ⟨_, hfirst, _⟩
  exact hfirst 2 .round hmismatch

end Rulebook
