import Rulebook.Proofs.Stage

/-!
# The loop of a parse

Each rule has an effect at a stage: none, another stage further on, or a fault. A step takes the
effect of the first rule that has any, and a parse takes steps until the input is used up or a step
fails. These relations mirror the loops of the parser without its world, and a parse ends as they
say; what a table of rules does is then a question about stages alone.
-/

namespace Rulebook

open Run

/-- What applying a rule comes to. -/
inductive Effect
  | idle
  | moved (stage : Stage)
  | failed (fault : Fault)

/-- The stage is of the same parse and further on. -/
structure Stage.Ahead (stage next : Stage) : Prop where
  reading : next.reading = { stage.reading with cursor := next.reading.cursor }
  offset : stage.reading.cursor.offset < next.reading.cursor.offset

/-- The number of characters that are not consumed. -/
def Stage.left (stage : Stage) : Nat :=
  stage.reading.input.toList.length - stage.reading.cursor.offset

/-- How an attempt ends that has an effect. -/
def Effect.Post {α : Type} (id : HostId) (table : Table String Rule) (stage : Stage)
    (idle : α → Prop) (moved : α → Prop) (effect : Effect) (result : Except Fault α)
    (after : World) : Prop :=
  match effect with
  | .idle => ∃ value, result = .ok value ∧ idle value ∧ after.Parses id table stage
  | .moved next => ∃ value, result = .ok value ∧ moved value ∧ after.Parses id table next
  | .failed fault => ∃ found, result = .error found ∧ found = fault

section Post

variable {α : Type} {id : HostId} {table : Table String Rule} {stage : Stage}
  {idle moved : α → Prop} {effect : Effect} {after : World}

theorem Effect.Post.ok {value : α}
    (hpost : effect.Post id table stage idle moved (.ok value) after) :
    (effect = .idle ∧ idle value ∧ after.Parses id table stage) ∨
      ∃ next, effect = .moved next ∧ moved value ∧ after.Parses id table next := by
  cases effect with
  | idle =>
      obtain ⟨_, heq, hidle, hafter⟩ := hpost
      cases heq
      exact Or.inl ⟨rfl, hidle, hafter⟩
  | moved next =>
      obtain ⟨_, heq, hmoved, hafter⟩ := hpost
      cases heq
      exact Or.inr ⟨next, rfl, hmoved, hafter⟩
  | failed fault =>
      obtain ⟨_, heq, _⟩ := hpost
      cases heq

theorem Effect.Post.error {fault : Fault}
    (hpost : effect.Post id table stage idle moved (.error fault) after) :
    effect = .failed fault := by
  cases effect with
  | idle =>
      obtain ⟨_, heq, _⟩ := hpost
      cases heq
  | moved next =>
      obtain ⟨_, heq, _⟩ := hpost
      cases heq
  | failed found =>
      obtain ⟨_, heq, rfl⟩ := hpost
      cases heq
      rfl

end Post

section Relations

variable (kernel : Kernel) (id : HostId) (table : Table String Rule)

/-- Applying a rule has an effect at a stage, whatever else there is in the world. -/
def Acts (label : String) (stage : Stage) (effect : Effect) : Prop :=
  (∀ next, effect = .moved next → stage.Ahead next) ∧
    ∀ world : World, world.Parses id table stage →
      (kernel.sendHost id "apply" [.text label]).Ends world
        (effect.Post id table stage (· = .null) fun _ => True)

/-- Trying rules in order has an effect, that of the first rule that is not idle. -/
inductive Tries (stage : Stage) : List String → Effect → Prop
  | none : Tries stage [] .idle
  | skip {label : String} {rest : List String} {effect : Effect}
      (hidle : Acts kernel id table label stage .idle) (hrest : Tries stage rest effect) :
      Tries stage (label :: rest) effect
  | moved {label : String} {rest : List String} {next : Stage}
      (hmoved : Acts kernel id table label stage (.moved next)) :
      Tries stage (label :: rest) (.moved next)
  | failed {label : String} {rest : List String} {fault : Fault}
      (hfailed : Acts kernel id table label stage (.failed fault)) :
      Tries stage (label :: rest) (.failed fault)

/-- How a parse ends. -/
inductive Ending
  /-- The input is used up. -/
  | finished (stage : Stage)
  /-- No rule has an effect at a character. -/
  | stuck (stage : Stage) (char : Char)
  /-- A rule failed. -/
  | failed (fault : Fault)

/-- How a parse goes on from a stage. -/
inductive Goes : Stage → Ending → Prop
  | finished {stage : Stage} (hleft : stage.left = 0) : Goes stage (.finished stage)
  | stuck {stage : Stage} {char : Char}
      (hchar : stage.reading.input.toList[stage.reading.cursor.offset]? = some char)
      (htries : Tries kernel id table stage table.keys .idle) : Goes stage (.stuck stage char)
  | failed {stage : Stage} {fault : Fault} (hleft : 0 < stage.left)
      (htries : Tries kernel id table stage table.keys (.failed fault)) :
      Goes stage (.failed fault)
  | onward {stage next : Stage} {ending : Ending} (hleft : 0 < stage.left)
      (htries : Tries kernel id table stage table.keys (.moved next)) (hnext : Goes next ending) :
      Goes stage ending

end Relations

theorem Stage.left_pos {stage : Stage} {char : Char}
    (hchar : stage.reading.input.toList[stage.reading.cursor.offset]? = some char) :
    0 < stage.left := by
  obtain ⟨hlt, _⟩ := List.getElem?_eq_some_iff.mp hchar
  exact Nat.sub_pos_of_lt hlt

theorem Stage.Ahead.left_lt {stage next : Stage} (hahead : stage.Ahead next)
    (hleft : 0 < stage.left) : next.left < stage.left := by
  have hinput : next.reading.input = stage.reading.input := by rw [hahead.reading]
  have hoffset := hahead.offset
  simp only [Stage.left, hinput] at hleft ⊢
  omega

theorem Tries.ahead {kernel : Kernel} {id : HostId} {table : Table String Rule}
    {labels : List String} {stage next : Stage}
    (htries : Tries kernel id table stage labels (.moved next)) :
    stage.Ahead next := by
  generalize heffect : Effect.moved next = effect at htries
  induction htries with
  | none => cases heffect
  | skip _ _ ih => exact ih heffect
  | moved hmoved => exact hmoved.1 next heffect.symm
  | failed => cases heffect

/-- The complaint about a character at a stage. -/
def Stage.complaint (stage : Stage) (char : Char) : Fault :=
  .unexpectedCharacter (Text.quoted (String.ofList [char])) stage.reading.pointer

variable {world : World} {id : HostId} {table : Table String Rule} {rounds depth : Nat}
  {stage next : Stage} {effect : Effect} {ending : Ending}

theorem offset_look (hparses : world.Parses id table stage) (serial : Nat) :
    (Run.cursor id "_i").outcome (world.withSerial serial) =
      (.ok stage.reading.cursor, world.withSerial serial) :=
  cursor_look hparses.reads.cursor "_i" serial

/-! ## A step -/

/-- What trying rules in order comes to. -/
theorem tryRules_ends {kernel : Kernel} {labels : List String}
    (htries : Tries kernel id table stage labels effect) (hparses : world.Parses id table stage) :
    (Parser.tryRules kernel id (labels.map .text)).Ends world
      (effect.Post id table stage (· = false) (· = true)) := by
  -- an idle rule leaves the stage as it was, so the next one is tried at the same stage
  induction htries generalizing world with
  | none => exact Gives.pure ⟨rfl, hparses⟩
  | skip hidle _ ih =>
      refine Ends.look stage.reading.cursor (offset_look hparses) ?_
      refine Gives.bind (hidle.2 world hparses) ?_
      rintro _ world ⟨rfl, hafter⟩
      refine Ends.look stage.reading.cursor (offset_look hafter) ?_
      rw [if_neg (Nat.lt_irrefl _)]
      exact ih hafter
  | @moved label rest next hmoved =>
      refine Ends.look stage.reading.cursor (offset_look hparses) ?_
      refine Gives.bind (hmoved.2 world hparses) ?_
      rintro _ world ⟨_, hafter⟩
      refine Ends.look next.reading.cursor (offset_look hafter) ?_
      rw [if_pos (hmoved.1 next rfl).offset]
      exact Gives.pure ⟨rfl, hafter⟩
  | @failed label rest fault hfailed =>
      refine Ends.look stage.reading.cursor (offset_look hparses) ?_
      exact Fails.bind (hfailed.2 world hparses)

theorem complain_fails {char : Char} (hparses : world.Parses id table stage)
    (hchar : stage.reading.input.toList[stage.reading.cursor.offset]? = some char) :
    (Parser.complain (Kernel.ofDepth rounds (depth + 1)) id).Fails world fun fault after =>
      fault = stage.complaint char ∧ after = world := by
  refine Gives.bind (location_gives hparses.reads.isAt) ?_
  rintro _ world ⟨⟨mark, rfl⟩, rfl⟩
  refine Ends.look _ (hostPart_look "input" hparses.reads.input) ?_
  refine Ends.look stage.reading.cursor (offset_look hparses) ?_
  refine Ends.look (.ofChars [char]) (fun serial => ?_) ?_
  · simp only [Parser.itemReached, hchar, outcome_pure]
  · refine Ends.look (Text.quoted (String.ofList [char])) (fun _ => rfl) ?_
    refine Ends.look _ (pointer_look hparses.reads.input hparses.reads.cursor mark) ?_
    exact Fails.fail ⟨rfl, rfl⟩

section Step

variable (hparses : world.Parses id table stage)

include hparses

theorem step_start {kernel : Kernel} {post : Except Fault Unit → World → Prop}
    (hrun : (do
      if ← Parser.tryRules kernel id (table.keys.map .text) then return ()
      else Parser.complain kernel id : Run Unit).Ends world post) :
    (Parser.step kernel id).Ends world post := by
  refine Ends.look _ (hostPart_look "rules" hparses.ruled.rules) ?_
  exact Ends.look _ (valuesIn_rules_look hparses.ruled) hrun

theorem step_moves (htries : Tries (Kernel.ofDepth rounds depth) id table stage table.keys
      (.moved next)) :
    ((Kernel.ofDepth rounds (depth + 1)).sendHost id "_step" []).Gives world
      fun _ after => after.Parses id table next := by
  have hstep : (Parser.step (Kernel.ofDepth rounds depth) id).Gives world
      fun _ after => after.Parses id table next := by
    refine step_start hparses (Gives.bind (tryRules_ends htries hparses) ?_)
    rintro _ world ⟨rfl, hafter⟩
    exact Gives.pure hafter
  refine sendHost_ends hparses.reads.plain .step [] rfl ?_
  refine Gives.bind hstep ?_
  intro _ world hafter
  exact Gives.pure hafter

theorem step_fails {fault : Fault} (htries : Tries (Kernel.ofDepth rounds depth) id table stage
      table.keys (.failed fault)) :
    ((Kernel.ofDepth rounds (depth + 1)).sendHost id "_step" []).Fails world
      fun found _ => found = fault := by
  have hstep : (Parser.step (Kernel.ofDepth rounds depth) id).Fails world
      fun found _ => found = fault :=
    step_start hparses (Fails.bind (tryRules_ends htries hparses))
  exact sendHost_ends hparses.reads.plain .step [] rfl (Fails.bind hstep)

theorem step_complains {char : Char}
    (hchar : stage.reading.input.toList[stage.reading.cursor.offset]? = some char)
    (htries : Tries (Kernel.ofDepth rounds (depth + 1)) id table stage table.keys .idle) :
    ((Kernel.ofDepth rounds (depth + 2)).sendHost id "_step" []).Fails world
      fun fault after => fault = stage.complaint char ∧ after.Parses id table stage := by
  have hstep : (Parser.step (Kernel.ofDepth rounds (depth + 1)) id).Fails world
      fun fault after => fault = stage.complaint char ∧ after.Parses id table stage := by
    refine step_start hparses (Gives.bind (tryRules_ends htries hparses) ?_)
    rintro _ world ⟨rfl, hafter⟩
    refine Fails.mono (complain_fails hafter hchar) ?_
    rintro _ _ ⟨rfl, rfl⟩
    exact ⟨rfl, hafter⟩
  exact sendHost_ends hparses.reads.plain .step [] rfl (Fails.bind hstep)

end Step

/-! ## The loop -/

/-- How the loop of a parse ends. -/
def Ending.Post (id : HostId) (table : Table String Rule) (result : Except Fault Unit)
    (after : World) : Ending → Prop
  | .finished stage => result = .ok () ∧ after.Parses id table stage
  | .stuck stage char => result = .error (stage.complaint char) ∧ after.Parses id table stage
  | .failed fault => result = .error fault

theorem stepAll_start {fuel : Nat} {kernel : Kernel} {post : Except Fault Unit → World → Prop}
    (hparses : world.Parses id table stage) (hfuel : stage.left < fuel)
    (hrun : ∀ rest, stage.left ≤ rest →
      (if 0 < stage.left then do
        let _ ← kernel.sendHost id "_step" []
        Parser.stepAll kernel id rest
      else return () : Run Unit).Ends world post) :
    (Parser.stepAll kernel id fuel).Ends world post := by
  cases fuel with
  | zero => exact absurd hfuel (Nat.not_lt_zero _)
  | succ rest =>
      have hrest := hrun rest (Nat.le_of_lt_succ hfuel)
      refine Ends.look stage.reading.cursor (offset_look hparses) ?_
      refine Ends.look _ (hostPart_look "input" hparses.reads.input) ?_
      refine Ends.look stage.reading.input.toList.length (fun _ => ?_) ?_
      · simp [lengthOf, String.length_toList]
      · simpa only [Stage.left, Nat.sub_pos_iff_lt] using hrest

/-- A parse that has rounds enough goes on to its ending. -/
theorem stepAll_ends {fuel : Nat}
    (hgoes : Goes (Kernel.ofDepth rounds (depth + 1)) id table stage ending)
    (hparses : world.Parses id table stage) (hfuel : stage.left < fuel) :
    (Parser.stepAll (Kernel.ofDepth rounds (depth + 2)) id fuel).Ends world
      fun result after => ending.Post id table result after := by
  -- every step leaves less of the input, so the fuel lasts as long as something is left
  induction hgoes generalizing world fuel with
  | finished hleft =>
      refine stepAll_start hparses hfuel fun rest _ => ?_
      rw [hleft, if_neg (Nat.lt_irrefl 0)]
      exact Ends.pure ⟨rfl, hparses⟩
  | @stuck stage char hchar htries =>
      refine stepAll_start hparses hfuel fun rest _ => ?_
      rw [if_pos (Stage.left_pos hchar)]
      refine Ends.mono (Fails.bind (step_complains hparses hchar htries)) ?_
      rintro result after ⟨fault, hresult, hfault, hafter⟩
      exact ⟨hfault ▸ hresult, hafter⟩
  | failed hleft htries =>
      refine stepAll_start hparses hfuel fun rest _ => ?_
      rw [if_pos hleft]
      refine Ends.mono (Fails.bind (step_fails hparses htries)) ?_
      rintro result after ⟨fault, hresult, rfl⟩
      exact hresult
  | onward hleft htries _ ih =>
      refine stepAll_start hparses hfuel fun rest hrest => ?_
      rw [if_pos hleft]
      refine Gives.bind (step_moves hparses htries) ?_
      intro _ world hafter
      exact ih hafter (Nat.lt_of_lt_of_le (htries.ahead.left_lt hleft) hrest)

/-! ## The whole parse -/

/-- The beginning of a parse, with the root and the list of open nodes it makes. -/
def Stage.start (input : String) (root stack : Nat) : Stage where
  reading := { input, cursor := .start, root, stack }
  levels := [.root]

/-- The world with a parser at the beginning of an input. -/
def World.restart (world : World) (id : HostId) (input : Value) : World :=
  let root := world.forest.size
  World.changeHost
    { world with
      forest := world.forest.add (.fresh root (.text "root") (.text "") .null)
      openStacks := world.openStacks.push #[.node root] }
    id fun host =>
      { host with
        input := some input, cursor := some .start, root := some (.node root)
        stack := some (.list (.stack world.openStacks.size)) }

theorem World.host_restart (input : Value) (hpresent : id < world.hosts.size) :
    (world.restart id input).host id =
      { world.host id with
        input := some input, cursor := some .start, root := some (.node world.forest.size)
        stack := some (.list (.stack world.openStacks.size)) } := by
  rw [World.restart, host_changeHost, if_pos ⟨rfl, hpresent⟩]
  rfl

/-- A parser that begins to read forgets where it was. -/
theorem World.restart_parses (hplain : world.Plain id) (hruled : world.Ruled id table)
    (input : String) :
    (world.restart id (.text input)).Parses id table
      (.start input world.forest.size world.openStacks.size) := by
  have hhost := World.host_restart (.text input) hplain.present
  have hcell : (world.restart id (.text input)).cell world.forest.size =
      .fresh world.forest.size (.text "root") (.text "") .null := by
    change (world.forest.add _).cell world.forest.size = _
    rw [Forest.cell_add, if_pos rfl]
  refine
    { reads :=
        { plain :=
            hplain.congr (by simp [World.restart, changeHost]) (by rw [hhost]) (by rw [hhost])
          input := by rw [hhost]; rfl
          cursor := by rw [hhost]; rfl
          root := by rw [hhost]; rfl
          stack := by rw [hhost]; rfl
          opened := ?_ }
      ruled := hruled.congr (by rw [hhost]) (by rw [hhost])
      grows := ⟨?_, ?_, trivial, trivial⟩
      size := Forest.size_add _ _
      opened := ?_ }
  · simp [World.restart, changeHost, Stage.start]
  · change ((world.restart id (.text input)).cell world.forest.size).Shows _ _ _
    rw [hcell]
    exact ⟨rfl, rfl, rfl, rfl, rfl, rfl, rfl⟩
  · change ((world.restart id (.text input)).cell world.forest.size).ownChildren.toList = _
    rw [hcell]
    rfl
  · simp [World.restart, changeHost, Stage.start, World.items, openNodes, nextNode]

theorem reset_gives (hplain : world.Plain id) (hruled : world.Ruled id table) (input : String) :
    ((Kernel.ofDepth rounds (depth + 1)).sendHost id "reset" [.text input]).Gives world
      fun _ after => after.Parses id table
        (.start input world.forest.size world.openStacks.size) := by
  refine sendHost_ends hplain .reset [_] rfl ?_
  refine Ends.change () (world.restart id (.text input)) (fun _ => rfl) ?_
  exact Gives.pure (World.restart_parses hplain hruled input)

/-- What a parse gives. At the end of the input the root alone has to be open. -/
def Ending.result : Ending → Except Fault Value
  | .finished ⟨_, inner :: _ :: _⟩ => .error (.unclosedNode inner.heading.label)
  | .finished ⟨reading, _⟩ => .ok (.node reading.root)
  | .stuck stage char => .error (stage.complaint char)
  | .failed fault => .error fault

/-- The stage that a parse ends at, unless a rule failed. -/
def Ending.stage? : Ending → Option Stage
  | .finished stage | .stuck stage _ => some stage
  | .failed _ => none

/-- A parse is closed at the end of the input, or complains about the innermost open node. -/
theorem close_ends (hparses : world.Parses id table stage) :
    (do
      let stack ← hostPart id "stack"
      if 1 < (← lengthOf stack) then Parser.unclosed stack
      else hostPart id "ast" : Run Value).Ends world fun result after =>
        result = (Ending.finished stage).result ∧ after = world := by
  obtain ⟨reading, levels⟩ := stage
  refine Ends.look _ (hostPart_look "stack" hparses.reads.stack) ?_
  refine Ends.look levels.length (fun serial => ?_) ?_
  · have hsize : (world.items (.stack reading.stack)).size = levels.length := by
      rw [hparses.opened, size_openNodes]
    exact congrArg (fun count => (Except.ok count, world.withSerial serial)) hsize
  · have hroot := hostPart_look "ast" hparses.reads.root
    rcases levels with _ | ⟨inner, _ | ⟨level, outer⟩⟩
    · exact fun serial => ⟨_, _, serial, hroot serial, rfl, rfl⟩
    · exact fun serial => ⟨_, _, serial, hroot serial, rfl, rfl⟩
    · refine Ends.look _ (getTop_look hparses.innermost.items) ?_
      refine Ends.look _ (typeOfTop_look hparses.grows.1.label) ?_
      refine Ends.look inner.heading.label (fun _ => rfl) ?_
      exact fun serial => ⟨_, _, serial, rfl, rfl, rfl⟩

/-- A parse with rounds for every character ends as it goes on from its beginning. -/
theorem parse_ends {input : String} (hplain : world.Plain id) (hruled : world.Ruled id table)
    (hgoes : Goes (Kernel.ofDepth rounds (depth + 1)) id table
      (.start input world.forest.size world.openStacks.size) ending)
    (hrounds : input.toList.length < rounds) :
    ((Kernel.ofDepth rounds (depth + 3)).sendHost id "parse" [.text input]).Ends world
      fun result after => result = ending.result ∧
        ∀ stage ∈ ending.stage?, after.Parses id table stage := by
  refine sendHost_ends hplain .parse [_] rfl ?_
  refine Gives.bind (reset_gives hplain hruled input) ?_
  intro _ world hparses
  refine Ends.bind (stepAll_ends hgoes hparses hrounds) ?_ ?_
  · intro _ after hpost
    cases ending with
    | finished stage =>
        refine Ends.mono (close_ends hpost.2) ?_
        rintro result _ ⟨hresult, rfl⟩
        exact ⟨hresult, fun stage hstage => Option.mem_some.mp hstage ▸ hpost.2⟩
    | stuck stage char => cases hpost.1
    | failed fault => cases hpost
  · intro fault after hpost
    cases ending with
    | finished stage => cases hpost.1
    | stuck stage char =>
        obtain ⟨hfault, hafter⟩ := hpost
        cases hfault
        exact ⟨rfl, fun stage hstage => Option.mem_some.mp hstage ▸ hafter⟩
    | failed fault =>
        cases hpost
        exact ⟨rfl, fun stage hstage => absurd hstage (Option.not_mem_none stage)⟩

end Rulebook
