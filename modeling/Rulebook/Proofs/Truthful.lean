import Rulebook.Proofs.Frame
import Rulebook.Proofs.Place

/-!
# A parser knows where it is

A parser counts lines and columns as it goes. Whatever scripts do with parsers, as long as patterns
match beginnings, what scripts themselves consume comes next in the input, and nobody puts another
input under a cursor, the location of a parser is the one that its input gives for its offset, at
every call and after every fault.
-/

namespace Rulebook

open Run

/-- Whether a text that a host is told to consume is what comes next in its input. -/
def World.comesNext (world : World) (id : HostId) (args : Args) : Bool :=
  match args.bind? ParserMethod.advance.params, (world.host id).input, (world.host id).cursor with
  | some [.text consumed], some (.text input), some cursor =>
    consumed.toList.isPrefixOf (input.toList.drop cursor.offset)
  | _, _, _ => true

/-- Whether what a host would find if it were told to match is the beginning of what is left of its
input. -/
def World.findsNext (world : World) (id : HostId) (args : Args) : Bool :=
  match args.bind? ParserMethod.match.params with
  | some [source] =>
    match (compilePattern source (.text "")).outcome world with
    | (.ok pattern, compiled) =>
      match ((Parser.charsLeft id pattern.binary).outcome compiled).1 with
      | .ok left => (pattern.match? left).all fun found => found.text.isPrefixOf left
      | .error _ => true
    | _ => true
  | _ => true

/-- The attributes that say what a parser reads and where it is. -/
def readingFields : List String := ["input", "_i", "_line", "_col"]

/-- Patterns match beginnings of what is left, and scripts consume nothing but what comes next. They
write nothing that says where a parser is, and put nothing in the place of what moves it on. -/
def honestReading : Law where
  call callable args world :=
    match callable with
    | .method _ (.host id) "_advance_text" => world.comesNext id args
    | .method _ (.host id) "match" => world.findsNext id args
    | .method _ (.host _) "define" => args.sparesNames ["_advance_text"]
    | _ => true
  own _ _ _ := true
  action
    | .write _ name _ => name ∉ "_advance_text" :: readingFields
    | _ => true

theorem honestReading_guards : honestReading.Guards ["_advance_text"] where
  define hcall := hcall
  write {_ name _} haction := by
    simp only [honestReading, List.mem_cons, not_or, decide_eq_true_eq] at haction
    rw [List.mem_singleton]
    exact haction.1

/-- The cursor of every parser that reads a text is at a place of the text. -/
def World.Truthful (world : World) : Prop :=
  ∀ (id : HostId) (input : String), (world.host id).input = some (.text input) →
    ∃ place ≤ input.toList.length,
      (world.host id).cursor = some (.ofPlace input.toList place)

/-- Consuming what comes next leaves the cursor at a place of the input. -/
theorem advance_comesNext {world : World} {id : HostId} {args : Args} {input consumed : String}
    {cursor : Cursor}
    (hargs : args.bind? ParserMethod.advance.params = some [.text consumed])
    (hinput : (world.host id).input = some (.text input))
    (hcursor : (world.host id).cursor = some cursor)
    (hnext : world.comesNext id args = true)
    (htruthful : world.Truthful) :
    ∃ place ≤ input.toList.length,
      some (cursor.advance consumed.toList) = some (Cursor.ofPlace input.toList place) := by
  obtain ⟨place, hplace, hat⟩ := htruthful id input hinput
  obtain rfl := Option.some.inj (hcursor.symm.trans hat)
  have hprefix : consumed.toList <+: input.toList.drop place := by
    simp only [World.comesNext, hargs, hinput, hcursor] at hnext
    exact List.isPrefixOf_iff_prefix.mp hnext
  have hlength := hprefix.length_le
  rw [List.length_drop] at hlength
  exact ⟨place + consumed.toList.length, by omega, by rw [Cursor.advance_ofPlace hprefix]⟩

/-- No lawful move takes a cursor off its input. -/
theorem truthful_preserved {law : Law} (hwithin : law.Within honestReading) :
    law.Preserves World.Truthful := by
  intro world after hmove htruthful id input
  have hhost := hmove.host id
  generalize after.host id = host at hhost ⊢
  cases hhost with
  | restart => exact fun _ => ⟨0, Nat.zero_le _, congrArg some (Cursor.ofPlace_zero _).symm⟩
  | change hchange =>
      cases hchange with
      | same | records | setNested => exact htruthful id input
      | made =>
          intro hinput
          cases hinput
      | advance hcall hargs hcursor =>
          intro hinput
          have hnext := hwithin.call _ _ _ hcall
          exact advance_comesNext hargs hinput hcursor hnext htruthful
      | mark content hname =>
          rw [Host.input_setAttribute, Host.cursor_setAttribute,
            if_neg (by rintro rfl; simp at hname)]
          exact htruthful id input
      | define =>
          rw [Host.input_setAttribute, Host.cursor_setAttribute]
          split
          next =>
            intro hinput
            cases hinput
          next => exact htruthful id input
      | write content haction =>
          have hfield := hwithin.action _ haction
          rw [Host.input_setAttribute, Host.cursor_setAttribute,
            if_neg (by rintro rfl; cases hfield)]
          exact htruthful id input

/-! ## What `match` consumes -/

theorem charsLeft_ok {world after : World} {id : HostId} {binary : Bool} {left : List Char}
    (houtcome : (Parser.charsLeft id binary).outcome world = (.ok left, after)) :
    after = world ∧ ∀ input cursor, (world.host id).input = some (.text input) →
      (world.host id).cursor = some cursor → left = input.toList.drop cursor.offset := by
  rw [Parser.charsLeft] at houtcome
  obtain ⟨value, middle, hpart, hrest⟩ := bind_ok houtcome
  obtain ⟨hinput, rfl⟩ := hostPart_ok hpart
  obtain ⟨cursor, last, hcursor, hchars⟩ := bind_ok hrest
  obtain ⟨hcursor, rfl⟩ := cursor_ok hcursor
  split at hchars
  next text =>
    cases hchars
    refine ⟨rfl, fun input other htext hother => ?_⟩
    cases hinput.symm.trans htext
    cases hcursor.symm.trans hother
    rfl
  next =>
    cases hchars
    refine ⟨rfl, fun input other htext _ => ?_⟩
    cases hinput.symm.trans htext
  next =>
    obtain ⟨_, _, _, hfails⟩ := bind_ok hchars
    cases hfails

/-- What `match` has a parser consume comes next in its input, if the pattern matches beginnings and
nothing stands before the method that consumes. -/
theorem consume_comesNext {before compiled looked after : World} {id other : HostId} {args : Args}
    {source : Value} {pattern : Pattern} {left : List Char} {found : Pattern.Match} {number : Nat}
    (hfree : before.Unreplaced ["_advance_text"])
    (hfinds : before.findsNext id args = true)
    (hargs : args.bind? ParserMethod.match.params = some [source])
    (hpattern : (compilePattern source (.text "")).outcome before = (.ok pattern, compiled))
    (hleft : (Parser.charsLeft id pattern.binary).outcome compiled = (.ok left, looked))
    (hfound : pattern.match? left = some found)
    (hresolve : (Law.resolve (.method (.host id) "_advance_text")).outcome
      (looked.withSerial (looked.serial + 1)) =
        (.ok (.method number (.host other) "_advance_text"), after)) :
    after.comesNext other (.of [pattern.valueOf found.text]) = true := by
  have hcompiled := quiet_compilePattern source (.text "") before
  rw [hpattern] at hcompiled
  obtain ⟨rfl, hreads⟩ := charsLeft_ok hleft
  have hmember : ((looked.withSerial (looked.serial + 1)).host id).attribute? "_advance_text" =
      none :=
    hfree.quiet hcompiled id _ (List.mem_singleton_self _)
  obtain ⟨_, hcallable, rfl⟩ := hostAttribute_ok rfl hmember hresolve
  cases hcallable
  have hprefix : found.text.isPrefixOf left = true := by
    simpa only [World.findsNext, hargs, hpattern, hleft, hfound, Option.all_some] using hfinds
  unfold World.comesNext
  split
  next consumed input cursor hbound hinput hcursor =>
    rw [← hreads input cursor hinput hcursor]
    rw [Args.bind?_of_length rfl, Pattern.valueOf] at hbound
    split at hbound
    next => cases hbound
    next =>
      cases hbound
      rwa [String.toList_ofList]
  next => rfl

/-- Where nothing stands before the method that consumes, what `match` has a parser consume is
lawful. -/
theorem honestReading_clears {law : Law} {before after : World} {callable : Value} {args : Args}
    (hwithin : law.Within honestReading) (hown : law.OwnCall before callable args after)
    (hfree : before.Unreplaced ["_advance_text"]) :
    honestReading.call callable args after = true := by
  cases hown with
  | consume hcall hargs hpattern hleft hfound hresolve =>
      exact consume_comesNext hfree (hwithin.call _ _ _ hcall) hargs hpattern hleft hfound hresolve
  | attach => rfl

/-! ## Whole runs -/

/-- Every parser that reads a text is located where its input says: the offset is a place of the
input, the line is one more than the line breaks before that place, and the column is one more than
the characters between the last of them and the place. -/
def World.LocatesTruly (world : World) : Prop :=
  ∀ (id : HostId) (input : String), (world.host id).input = some (.text input) →
    ∃ serial, ∃ place ≤ input.toList.length,
      ((Parser.location id).outcome world).1 =
        .ok (.ofCursor serial (.ofPlace input.toList place))

theorem World.Truthful.locates {world : World} (htruthful : world.Truthful) :
    world.LocatesTruly := by
  intro id input hinput
  obtain ⟨place, hplace, hcursor⟩ := htruthful id input hinput
  refine ⟨world.serial, place, hplace, ?_⟩
  have hlook := cursor_look hcursor "_line" world.serial
  exact congrArg Prod.fst (outcome_bind_ok hlook)

theorem honestReading_upholds :
    honestReading.Upholds fun world => world.Unreplaced ["_advance_text"] ∧ world.Truthful where
  preserves :=
    (unreplaced_preserved honestReading_guards (by decide)).both (truthful_preserved (.refl _))
  clears hown hboth _ := honestReading_clears (.refl _) hown hboth.1

theorem truthful_start : World.start.Truthful := by
  intro id input hinput
  cases hinput

theorem locations_truthful {rounds depth : Nat} {body : List Stmt}
    (hkeeps : honestReading.Keeps rounds depth body) :
    Throughout World.LocatesTruly rounds depth body :=
  hkeeps.throughout honestReading_upholds ⟨unreplaced_start, truthful_start⟩ fun _ hboth =>
    hboth.2.locates

/-- A rule reads over a line break, has another rule read on, and fails; then the parser is set to
another input and reads on there. -/
def linesScript : List Stmt :=
  [.act (.call "Parser" [] []) (some "parser"),
    .act (.send "parser" "set"
      [.datum (.text "end"),
        .callback "end" [.act (.send "self" "match" [.datum (.text "b")] []) none]] []) none,
    .act (.send "parser" "set"
      [.datum (.text "line"),
        .callback "line"
          [.act (.send "self" "match" [.datum (.text "a\n")] []) none,
            .act (.send "self" "apply" [.datum (.text "end")] []) none,
            .raise .value "stop"]] []) none,
    .attempt [.act (.send "parser" "parse" [.datum (.text "a\nbc")] []) none] "fault"
      [.act (.send "parser" "reset" [.datum (.text "\n\nd")] []) none,
        .act (.send "parser" "match" [.datum (.text "\n")] []) none]]

theorem locations_truthful_lines :
    honestReading.Keeps 10 10 linesScript ∧
      Throughout World.LocatesTruly 10 10 linesScript :=
  ⟨by decide +kernel, locations_truthful (by decide +kernel)⟩

end Rulebook
