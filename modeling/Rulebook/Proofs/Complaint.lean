import Mathlib.Data.Nat.Digits.Lemmas
import Rulebook.Proofs.LineAround
import Rulebook.Proofs.Truthful
import Rulebook.Proofs.Uncomplaining

/-!
# Complaints show what they are about

A complaint says at which line and column it is, from what the parser has counted, and shows that
line with a caret, from a search through the input. The two agree in every state that scripts bring
a parser to: the line shown is the one counted to, the caret stands in the column told, and the
character complained about is the one above the caret.
-/

namespace Rulebook

open Run

/-! ## Texts of one line -/

namespace Text

theorem not_mem_toString (number : Nat) : '\n' ∉ (toString number).toList := by
  intro hmem
  have hdigits : (toString number).toList = Nat.toDigits 10 number := by
    rw [Nat.toString_eq_repr, Nat.repr_eq_ofList_toDigits, String.toList_ofList]
  rw [hdigits] at hmem
  exact absurd (Nat.isDigit_of_mem_toDigits (by decide) (by decide) hmem) (by decide)

theorem not_mem_hexDigits (count number : Nat) : '\n' ∉ hexDigits count number := by
  induction count generalizing number with
  | zero => exact List.not_mem_nil
  | succ count ih =>
      have hdigit : ∀ digit < 16, '\n' ≠ Nat.digitChar digit := by decide
      rw [hexDigits, List.mem_append, List.mem_singleton, not_or]
      exact ⟨ih _, hdigit _ (Nat.mod_lt _ (by decide))⟩

theorem not_mem_codeEscape (char : Char) : '\n' ∉ codeEscape char := by
  unfold codeEscape
  dsimp only
  split
  next => simp [not_mem_hexDigits]
  next => split <;> simp [not_mem_hexDigits]

theorem not_mem_escaped {printable : Char → Bool} {quote : Char} (hquote : quote ≠ '\n')
    (char : Char) : '\n' ∉ escaped printable quote char := by
  unfold escaped
  split
  next hspecial => rcases hspecial with rfl | rfl <;> simp [Ne.symm hquote]
  next =>
    split
    next => decide
    next hbreak =>
      split
      next => decide
      next =>
        split
        next => decide
        next =>
          split
          next => simp [Ne.symm hbreak]
          next => exact not_mem_codeEscape char

/-- A quoted text is on one line. -/
theorem not_mem_quoted (text : String) : '\n' ∉ (quoted text).toList := by
  have hquote : quoteFor text.toList ≠ '\n' := by
    unfold quoteFor
    split <;> decide
  rw [quoted, String.toList_ofList, quotedChars]
  simp only [List.mem_cons, List.mem_append, List.mem_flatMap, List.not_mem_nil, or_false, not_or,
    not_exists, not_and]
  exact ⟨hquote.symm, fun char _ => not_mem_escaped hquote char, hquote.symm⟩

end Text

/-! ## What a complaint shows -/

/-- A fault is a complaint at a line and a column: its message begins as told, shows the line of
that number, and has a caret in that column below it. -/
structure Fault.ShowsLine (fault : Fault) (input opening : String) (line column : Nat)
    (shown : List Char) : Prop where
  line_pos : 1 ≤ line
  column_pos : 1 ≤ column
  message : ∃ message, fault.message? = some message ∧
    message.toList.splitOn '\n' =
      [(opening ++ " at " ++ toString line ++ ":" ++ toString column).toList, shown,
        List.replicate (column - 1) ' ' ++ ['^']]
  shown : (input.toList.splitOn '\n')[line - 1]? = some shown

/-- A character is the one above a caret, or the line break behind a line that the caret stands just
past. -/
def IsAbove (char : Char) (column : Nat) (shown : List Char) : Prop :=
  shown[column - 1]? = some char ∨ char = '\n' ∧ column - 1 = shown.length

section Pointing

variable {input opening : String} {fault : Fault} {place : Nat}

/-- A complaint that points at a place of the input shows the line of that place. -/
theorem showsLine_ofPlace (hplace : place ≤ input.toList.length) (hopening : '\n' ∉ opening.toList)
    (hmessage : fault.message? =
      some (opening ++ " at " ++ Fault.pointerText (.ofPlace input.toList place))) :
    ∃ line column shown, fault.ShowsLine input opening line column shown ∧
      ∀ char, input.toList[place]? = some char → IsAbove char column shown := by
  obtain ⟨before, left, right, after, haround⟩ := Text.exists_lineAround hplace
  have hstart := haround.lineStart
  have hcolumn : place - Text.lineStart input.toList place = left.length := by
    rw [hstart, haround.place, Nat.add_sub_cancel_left]
  refine ⟨(Cursor.ofPlace input.toList place).line, (Cursor.ofPlace input.toList place).column,
    left ++ right, ⟨?_, ?_, ⟨_, hmessage, ?_⟩, ?_⟩, ?_⟩
  · simp [Cursor.ofPlace]
  · simp [Cursor.ofPlace]
  · have htext : (opening ++ " at " ++ Fault.pointerText (.ofPlace input.toList place)).toList =
        (opening ++ " at " ++ toString (Cursor.ofPlace input.toList place).line ++ ":" ++
          toString (Cursor.ofPlace input.toList place).column).toList ++
          '\n' :: ((left ++ right) ++ '\n' :: (List.replicate left.length ' ' ++ ['^'])) := by
      simp only [Fault.pointerText, Pointer.ofPlace, Text.caretSnippet, haround.slice, hcolumn,
        String.toList_append, String.toList_ofList, List.append_assoc]
      rfl
    have hfirst : '\n' ∉ (opening ++ " at " ++ toString (Cursor.ofPlace input.toList place).line ++
        ":" ++ toString (Cursor.ofPlace input.toList place).column).toList := by
      simp only [String.toList_append, List.mem_append, hopening, Text.not_mem_toString, or_false,
        false_or]
      decide
    have hshown : '\n' ∉ left ++ right := by simp [haround.left, haround.right]
    have hcaret : '\n' ∉ List.replicate left.length ' ' ++ ['^'] := by simp
    rw [htext, Text.splitOn_append, Text.splitOn_append, Text.splitOn_line hfirst,
      Text.splitOn_line hshown, Text.splitOn_line hcaret, Cursor.ofPlace, hcolumn]
    rfl
  · exact haround.splitOn
  · intro char hchar
    rw [IsAbove, Cursor.ofPlace, hcolumn, Nat.add_sub_cancel]
    exact haround.getElem?_left hchar

end Pointing

/-! ## Where complaints are made -/

/-- A parser reads a text at a place and tells its location itself. -/
structure World.StandsAt (world : World) (id : HostId) (input : String) (place : Nat) : Prop where
  reads : (world.host id).input = some (.text input)
  cursor : (world.host id).cursor = some (.ofPlace input.toList place)
  location : (world.host id).members.get? "location" = none

theorem World.StandsAt.quiet {world after : World} {id : HostId} {input : String} {place : Nat}
    (hstands : world.StandsAt id input place) (hquiet : world.Quiet after) :
    after.StandsAt id input place := by
  constructor <;> rw [hquiet.host_eq]
  exacts [hstands.reads, hstands.cursor, hstands.location]

section Complaining

variable {α β : Type} {id : HostId} {input : String} {place : Nat} {expected : Fault → Prop}

/-- Where a parser stands at a place, a run complains about syntax only as expected. -/
def Run.ComplainsAt (id : HostId) (input : String) (place : Nat) (expected : Fault → Prop)
    (run : Run α) : Prop :=
  ∀ world : World, world.StandsAt id input place → ∀ fault after,
    run.outcome world = (.error fault, after) → fault.isSyntax = true → expected fault

theorem Run.Uncomplaining.complainsAt {run : Run α} (hrun : run.Uncomplaining) :
    ComplainsAt id input place expected run := by
  intro world _ fault after houtcome hsyntax
  rw [hrun world fault after houtcome] at hsyntax
  cases hsyntax

theorem Run.ComplainsAt.fail {fault : Fault} (hfault : expected fault) :
    ComplainsAt id input place expected (fail fault : Run α) := by
  rintro world _ _ after ⟨⟩ _
  exact hfault

/-- Looking first makes no difference to what is complained about. -/
theorem Run.ComplainsAt.look {first : Run α} {next : α → Run β} (hquiet : first.Quiet)
    (hfirst : first.Uncomplaining)
    (hnext : ∀ value, ComplainsAt id input place expected (next value)) :
    ComplainsAt id input place expected (first >>= next) := by
  intro world hstands fault after houtcome hsyntax
  have hmiddle := hquiet world
  rw [outcome_bind] at houtcome
  split at houtcome
  next value middle hvalue =>
    rw [hvalue] at hmiddle
    exact hnext value middle (hstands.quiet hmiddle) fault after houtcome hsyntax
  next found middle hfound =>
    cases houtcome
    exact hfirst.complainsAt world hstands _ _ hfound hsyntax

/-- What is read off the world is known to what comes after it. -/
theorem Run.ComplainsAt.read {first : Run α} {next : α → Run β} (value : α)
    (hread : ∀ world : World, world.StandsAt id input place →
      first.outcome world = (.ok value, world))
    (hnext : ComplainsAt id input place expected (next value)) :
    ComplainsAt id input place expected (first >>= next) := by
  intro world hstands fault after houtcome
  rw [outcome_bind_ok (hread world hstands)] at houtcome
  exact hnext world hstands fault after houtcome

theorem hostPart_input {world : World} (hstands : world.StandsAt id input place) :
    (hostPart id "input").outcome world = (.ok (.text input), world) :=
  hostPart_look "input" hstands.reads world.serial

theorem cursor_at {world : World} (hstands : world.StandsAt id input place) (lacking : String) :
    (Run.cursor id lacking).outcome world = (.ok (.ofPlace input.toList place), world) :=
  cursor_look hstands.cursor lacking world.serial

theorem pointer_at {world : World} (hstands : world.StandsAt id input place) (serial : Nat) :
    (Parser.pointer id (.ofCursor serial (.ofPlace input.toList place))).outcome world =
      (.ok (.ofPlace input.toList place), world) :=
  pointer_look hstands.reads hstands.cursor serial world.serial

/-- Asked for its location, a parser gives the one it stands at, or it has none to give. -/
theorem askLocation_outcome {world : World} (hstands : world.StandsAt id input place)
    (rounds depth : Nat) :
    (∃ fault after, (Parser.askLocation (Kernel.ofDepth rounds depth) id).outcome world =
        (.error fault, after) ∧ fault.isSyntax = false) ∨
      ∃ serial later, (Parser.askLocation (Kernel.ofDepth rounds depth) id).outcome world =
        (.ok (.ofCursor serial (.ofPlace input.toList place)), world.withSerial later) := by
  cases depth with
  | zero => exact Or.inl ⟨.tooDeep, world, rfl, rfl⟩
  | succ depth =>
      have hasked : (Parser.askLocation (Kernel.ofDepth rounds (depth + 1)) id) = (do
          callValue (Kernel.ofDepth rounds depth) (← hostAttribute id "location") (.of [])) := rfl
      have hplain : isComputed (world.host id) "location" = false := rfl
      have hmember : (world.host id).attribute? "location" = none := hstands.location
      rw [hasked, outcome_bind, hostAttribute_method hplain hmember]
      cases hmethod : (world.host id).hostClass.method? "location" with
      | none => exact Or.inl ⟨_, world, rfl, rfl⟩
      | some method =>
          obtain rfl : method = .parser .location :=
            HostMethod.eq_parser (HostClass.name_of_method? hmethod) rfl
          have hlocation := cursor_look hstands.cursor "_line" (world.serial + 1)
          refine Or.inr ⟨world.serial + 1, world.serial + 2, ?_⟩
          refine (callValue_method (world.withSerial (world.serial + 1)) hmethod).trans ?_
          exact outcome_bind_ok hlocation

theorem askLocation_at {next : Value → Run β} (rounds depth : Nat)
    (hnext : ∀ serial, ComplainsAt id input place expected
      (next (.ofCursor serial (.ofPlace input.toList place)))) :
    ComplainsAt id input place expected
      (Parser.askLocation (Kernel.ofDepth rounds depth) id >>= next) := by
  intro world hstands fault after houtcome hsyntax
  rw [outcome_bind] at houtcome
  rcases askLocation_outcome hstands rounds depth with
    ⟨other, failed, hfailed, hother⟩ | ⟨serial, later, hok⟩
  · rw [hfailed] at houtcome
    cases houtcome
    rw [hother] at hsyntax
    cases hsyntax
  · rw [hok] at houtcome
    have hlater : (world.withSerial later).StandsAt id input place :=
      hstands.quiet (.of_eq rfl rfl rfl rfl rfl)
    exact hnext serial _ hlater fault after houtcome hsyntax

theorem noOpenNode_at (rounds depth : Nat) (label : String) :
    ComplainsAt id input place (· = .noOpenNode label (.ofPlace input.toList place))
      (Parser.noOpenNode (Kernel.ofDepth rounds depth) id (.text label)) := by
  refine askLocation_at rounds depth fun serial => ?_
  refine .read label (fun _ _ => rfl) ?_
  exact .read _ (fun _ hstands => pointer_at hstands serial) (.fail rfl)

theorem pop_at (rounds depth : Nat) (label : String) :
    ComplainsAt id input place (· = .noOpenNode label (.ofPlace input.toList place))
      (Parser.pop (Kernel.ofDepth rounds depth) id (.text label)) := by
  refine .look (quiet_hostPart _ _) (uncomplaining_hostPart _ _) fun stack => ?_
  refine .look (quiet_lengthOf _) (uncomplaining_lengthOf _) fun size => ?_
  split
  next => exact noOpenNode_at rounds depth label
  next =>
    refine .look (quiet_getItem _ _) (uncomplaining_getItem _ _) fun top => ?_
    refine .look (quiet_attributeOf _ _) (uncomplaining_attributeOf _ _) fun found => ?_
    refine .look (quiet_equal _ _) (uncomplaining_equal _ _) fun verdict => ?_
    split
    next => exact (uncomplaining_takeLast _).complainsAt
    next => exact noOpenNode_at rounds depth label

/-- What is complained about when no rule moves a parser on from a place. -/
def IsUnexpected (input : String) (place : Nat) (fault : Fault) : Prop :=
  ∃ char, input.toList[place]? = some char ∧
    fault = .unexpectedCharacter (Text.quoted (String.ofList [char]))
      (.ofPlace input.toList place)

theorem complain_at (rounds depth : Nat) :
    ComplainsAt id input place (IsUnexpected input place)
      (Parser.complain (Kernel.ofDepth rounds depth) id) := by
  refine askLocation_at rounds depth fun serial => ?_
  refine .read _ (fun _ hstands => hostPart_input hstands) ?_
  refine .read _ (fun _ hstands => cursor_at hstands "_i") ?_
  cases hchar : input.toList[place]? with
  | none =>
      intro world _ fault after houtcome hsyntax
      simp only [Parser.itemReached, Cursor.ofPlace, hchar] at houtcome
      cases houtcome
      cases hsyntax
  | some char =>
      refine .read (.ofChars [char]) (fun world _ => ?_) ?_
      · simp only [Parser.itemReached, Cursor.ofPlace, hchar, outcome_pure]
      · refine .read (Text.quoted (String.ofList [char])) (fun _ _ => rfl) ?_
        exact .read _ (fun _ hstands => pointer_at hstands serial) (.fail ⟨char, hchar, rfl⟩)

end Complaining

/-! ## Every complaint of a run -/

/-- Parsers read honestly, and each tells its location itself: no member and no attribute takes the
place of `location`. -/
def honestLocating : Law where
  call callable args world :=
    honestReading.call callable args world &&
      match callable with
      | .method _ (.host _) "define" => args.sparesNames ["location"]
      | _ => true
  own := honestReading.own
  action action :=
    honestReading.action action &&
      match action with
      | .write _ name _ => name ∉ ["location"]
      | _ => true

theorem honestLocating_within : honestLocating.Within honestReading where
  call _ _ _ hcall := (Bool.and_eq_true_iff.mp hcall).1
  own _ _ _ := id
  action _ haction := (Bool.and_eq_true_iff.mp haction).1

theorem honestLocating_guards : honestLocating.Guards ["location"] where
  define hcall := (Bool.and_eq_true_iff.mp hcall).2
  write haction := of_decide_eq_true (Bool.and_eq_true_iff.mp haction).2

/-- Whatever a parser that reads a text complains about when a node is to be closed, or when no rule
moves it on, the complaint shows the line it is about. -/
def World.ComplainsTruly (world : World) : Prop :=
  ∀ (rounds depth serial : Nat) (id : HostId) (input : String),
    (world.host id).input = some (.text input) →
    (∀ (label : String) (fault : Fault) (after : World), '\n' ∉ label.toList →
      (Parser.pop (Kernel.ofDepth rounds depth) id (.text label)).outcome
        (world.withSerial serial) = (.error fault, after) → fault.isSyntax = true →
      ∃ line column shown, fault.ShowsLine input
        ("Parse error: no open '" ++ label ++ "' to close") line column shown) ∧
    ∀ (fault : Fault) (after : World),
      (Parser.complain (Kernel.ofDepth rounds depth) id).outcome
        (world.withSerial serial) = (.error fault, after) → fault.isSyntax = true →
      ∃ line column shown char, fault.ShowsLine input
        ("Parse error: unexpected character " ++ Text.quoted (String.ofList [char]))
          line column shown ∧ IsAbove char column shown

theorem message_noOpenNode (label : String) (pointer : Pointer) :
    (Fault.noOpenNode label pointer).message? =
      some ("Parse error: no open '" ++ label ++ "' to close" ++ " at " ++
        Fault.pointerText pointer) := by
  have hword : "' to close at " = "' to close" ++ " at " := by decide
  rw [Fault.message?, hword, ← String.append_assoc]

theorem message_unexpectedCharacter (spelling : String) (pointer : Pointer) :
    (Fault.unexpectedCharacter spelling pointer).message? =
      some ("Parse error: unexpected character " ++ spelling ++ " at " ++
        Fault.pointerText pointer) := rfl

theorem World.Truthful.complains {world : World} (htruthful : world.Truthful)
    (hlocates : world.Unreplaced ["location"]) : world.ComplainsTruly := by
  intro rounds depth serial id input hinput
  obtain ⟨place, hplace, hcursor⟩ := htruthful id input hinput
  have hstands : (world.withSerial serial).StandsAt id input place :=
    ⟨hinput, hcursor, hlocates id _ (List.mem_singleton_self _)⟩
  constructor
  · intro label fault after hlabel houtcome hsyntax
    obtain rfl := pop_at rounds depth label _ hstands fault after houtcome hsyntax
    have hopening : '\n' ∉ ("Parse error: no open '" ++ label ++ "' to close").toList := by
      simp only [String.toList_append, List.mem_append, hlabel, or_false]
      decide
    obtain ⟨line, column, shown, hshows, _⟩ := showsLine_ofPlace hplace hopening
      (message_noOpenNode label _)
    exact ⟨line, column, shown, hshows⟩
  · intro fault after houtcome hsyntax
    obtain ⟨char, hchar, rfl⟩ := complain_at rounds depth _ hstands fault after houtcome hsyntax
    have hopening : '\n' ∉ ("Parse error: unexpected character " ++
        Text.quoted (String.ofList [char])).toList := by
      simp only [String.toList_append, List.mem_append, Text.not_mem_quoted, or_false]
      decide
    obtain ⟨line, column, shown, hshows, habove⟩ := showsLine_ofPlace hplace hopening
      (message_unexpectedCharacter _ _)
    exact ⟨line, column, shown, char, hshows, habove char hchar⟩

theorem honestLocating_upholds :
    honestLocating.Upholds fun world =>
      (world.Unreplaced ["_advance_text"] ∧ world.Truthful) ∧ world.Unreplaced ["location"] where
  preserves := by
    have hguards := honestLocating_within.guards honestReading_guards
    exact ((unreplaced_preserved hguards (by decide)).both
      (truthful_preserved honestLocating_within)).both
        (unreplaced_preserved honestLocating_guards (by decide))
  clears hown hboth _ := by
    refine Bool.and_eq_true_iff.mpr
      ⟨honestReading_clears honestLocating_within hown hboth.1.1, ?_⟩
    cases hown <;> rfl

theorem complaints_truthful {rounds depth : Nat} {body : List Stmt}
    (hkeeps : honestLocating.Keeps rounds depth body) :
    Throughout World.ComplainsTruly rounds depth body :=
  hkeeps.throughout honestLocating_upholds ⟨⟨unreplaced_start, truthful_start⟩, unreplaced_start⟩
    fun _ hall => hall.1.2.complains hall.2

/-- A parse stops at a character of the second line, and then nothing is open to be closed. -/
def stuckScript : List Stmt :=
  [.act (.call "Parser" [] []) (some "parser"),
    .act (.send "parser" "set"
      [.datum (.text "line"),
        .callback "line" [.act (.send "self" "match" [.datum (.text "a\n")] []) none]] []) none,
    .attempt [.act (.send "parser" "parse" [.datum (.text "a\nb")] []) none] "fault"
      [.attempt [.act (.send "parser" "pop" [.datum (.text "list")] []) none] "fault" []]]

theorem complaints_truthful_stuck :
    honestLocating.Keeps 10 10 stuckScript ∧ Throughout World.ComplainsTruly 10 10 stuckScript :=
  ⟨by decide +kernel, complaints_truthful (by decide +kernel)⟩

end Rulebook
