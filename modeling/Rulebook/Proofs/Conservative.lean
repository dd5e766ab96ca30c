import Rulebook.Proofs.Collapse
import Rulebook.Proofs.Extension.Script

/-!
# Rules that a text does not need

What a parser makes of a text it makes of it with more rules as well, whatever they are, if they
come in under new labels: they stand behind the rules that were there, and a step ends with the
first rule that moves on. So it is as long as no script reads the table or asks it for other rules,
and as long as no step runs out of rules: a script that starts a step itself and catches the
complaint can tell whether there is a rule more.
-/

namespace Rulebook

open Run

/-! ## Rules under new labels -/

section Table

variable {κ α : Type} [DecidableEq κ]

/-- What is written under a new key goes in behind. -/
theorem Table.insertEntry_append {key : κ} {first : List (κ × α)} (hnew : key ∉ first.map Prod.fst)
    (entry : α) (more : List (κ × α)) :
    insertEntry key entry (first ++ more) = first ++ insertEntry key entry more := by
  induction first with
  | nil => rfl
  | cons head rest ih =>
      rw [List.map_cons, List.mem_cons, not_or] at hnew
      rw [List.cons_append, insertEntry, if_neg (Ne.symm hnew.1), ih hnew.2, List.cons_append]

theorem lookup_append_new {key : κ} {first : List (κ × α)} (hnew : key ∉ first.map Prod.fst)
    (more : List (κ × α)) : (first ++ more).lookup key = more.lookup key := by
  rw [List.lookup_append, lookup_absent hnew, Option.none_or]

end Table

theorem Record.write_append {first : List (Key × Entry)} {key : Key}
    (hnew : key ∉ first.map Prod.fst) {record more : Record}
    (hrecord : record.entries = first ++ more.entries) (name value : Value) :
    (record.write key name value).entries = first ++ (more.write key name value).entries := by
  have hfound : record.get? key = more.get? key := by
    rw [Table.get?, hrecord, lookup_append_new hnew, Table.get?]
  rw [Record.write, Record.write, hfound, Table.insert, hrecord]
  exact Table.insertEntry_append hnew _ _

namespace Register

/-- A register has the rules of another behind the first ones, and goes on with the same number. -/
structure Extends (first : Record) (register other : Register) : Prop where
  rules : register.rules.entries = first.entries ++ other.rules.entries
  serial : register.serial = other.serial

namespace Extends

variable {first : Record} {register other : Register}

theorem setRule (hextends : Extends first register other) {label : String}
    (hnew : Key.text label ∉ first.keys) (rule : Value) :
    Extends first (register.setRule label rule) (other.setRule label rule) where
  rules := Record.write_append hnew hextends.rules _ _
  serial := hextends.serial

theorem skip (hextends : Extends first register other) (count : Nat) :
    Extends first (register.skip count) (other.skip count) where
  rules := hextends.rules
  serial := congrArg (· + count) hextends.serial

theorem capture (hextends : Extends first register other) {label : String}
    (hnew : Key.text label ∉ first.keys) (origin : Origin) :
    Extends first (register.capture label origin) (other.capture label origin) := by
  cases origin with
  | given rule =>
      have hnotified : Extends first (register.notify (.callbackRule label))
          (other.notify (.callbackRule label)) := ⟨hextends.rules, hextends.serial⟩
      exact (hnotified.setRule hnew rule).skip 1
  | captured pattern =>
      let notice : Notice := .patternRule label (Text.quoted pattern.source)
      have hnotified : Extends first ((register.setPattern label pattern).notify notice)
          ((other.setPattern label pattern).notify notice) := ⟨hextends.rules, hextends.serial⟩
      rw [Register.capture, Register.capture, hextends.serial]
      exact (hnotified.setRule hnew _).skip 2

theorem enter (hextends : Extends first register other) {request : Request}
    (hnew : ∀ entry ∈ request.accepted?, Key.text entry.1 ∉ first.keys) :
    Extends first (register.enter request) (other.enter request) := by
  cases request with
  | set label rule => exact (hextends.setRule (hnew _ rfl) rule).skip 1
  | capture label matcher flags =>
      rw [Register.enter, Register.enter]
      split
      next label origin hentry => exact hextends.capture (hnew _ hentry) origin
      next => exact hextends

/-- Requests under new labels leave the rules that were there and add others behind them. -/
theorem enterAll (hextends : Extends first register other) {requests : List Request}
    (hnew : ∀ request ∈ requests, ∀ entry ∈ request.accepted?, Key.text entry.1 ∉ first.keys) :
    Extends first (requests.foldl Register.enter register)
      (requests.foldl Register.enter other) := by
  induction requests generalizing register other with
  | nil => exact hextends
  | cons request rest ih =>
      obtain ⟨hrequest, hrest⟩ := List.forall_mem_cons.mp hnew
      exact ih (hextends.enter hrequest) hrest

end Extends

end Register

/-! ## New parsers -/

section New

variable {world : World} {id : HostId}

theorem Register.ignores_enter {register : Register} (hrules : register.rules.Ignores id)
    {request : Request}
    (hgiven : ∀ label rule, request.accepted? = some (label, .given rule) → rule.Ignores id) :
    (register.enter request).rules.Ignores id := by
  cases request with
  | set label rule => exact hrules.write _ trivial (hgiven label rule rfl)
  | capture label matcher flags =>
      rw [Register.enter]
      split
      next label origin hentry =>
        cases origin with
        | given rule => exact hrules.write _ trivial (hgiven label rule hentry)
        | captured pattern => exact hrules.write _ trivial ⟨trivial, trivial⟩
      next => exact hrules

theorem Register.ignores_enterAll {register : Register} (hrules : register.rules.Ignores id)
    {requests : List Request}
    (hgiven : ∀ request ∈ requests, ∀ label rule,
      request.accepted? = some (label, .given rule) → rule.Ignores id) :
    (requests.foldl Register.enter register).rules.Ignores id := by
  induction requests generalizing register with
  | nil => exact hrules
  | cons request rest ih =>
      obtain ⟨hrequest, hrest⟩ := List.forall_mem_cons.mp hgiven
      exact ih (ignores_enter hrules hrequest) hrest

/-- What is registered on a parser does not refer to its tables if the rules do not. -/
theorem World.Ignores.withRegister (hworld : world.Ignores id) {register : Register}
    (hrules : register.rules.Ignores id) : (world.withRegister id register).Ignores id := by
  have htables : (world.withTables id register.rules register.patterns).Ignores id :=
    hworld.changeHost id fun hhost =>
      { hhost with ownRules := hrules, ownPatterns := fun hother => absurd rfl hother }
  exact { htables with }

theorem World.Ignores.restart (hworld : world.Ignores id) (number : HostId) {input : Value}
    (hinput : input.Ignores id) : (world.restart number input).Ignores id := by
  have hrooted := hworld.addCell (.fresh world.forest.size (.text "root") (.text "") .null)
  have hitems : AllIgnore id #[Value.node world.forest.size].toList := .cons trivial .nil
  have hstack : (Value.list (.stack world.openStacks.size)).Ignores id := trivial
  exact (hrooted.addStack hitems).changeHost number fun hhost =>
    { hhost with
      input := hinput.some, root := (Value.Ignores.node _).some, stack := hstack.some }

/-- A parser is made where nothing refers to the tables that it is going to have. -/
theorem World.Ignores.addEquipped (hworld : world.Ignores world.hosts.size) :
    world.addEquipped.Ignores world.hosts.size := by
  have hbare : Host.Ignores world.hosts.size world.hosts.size (Host.bare .parser) := .bare .parser
  have hhost : Host.Ignores world.hosts.size world.hosts.size
      { Host.bare .parser with
        options := some (.record (.options world.hosts.size))
        rules := some (.record (.rules world.hosts.size))
        patterns := some (.record (.patterns world.hosts.size)) } :=
    { hbare with
      options := (Value.Ignores.options _).some
      rules := fun _ hrules => .inr ⟨rfl, (Option.some.inj hrules).symm⟩
      patterns := fun _ hpatterns => .inr (.inr ⟨rfl, (Option.some.inj hpatterns).symm⟩)
      ownPatterns := fun _ => .empty }
  have hrestarted := (hworld.addHost hhost).restart world.hosts.size (.text "")
  have hcapture : (Value.bound (world.serial + 1) world.hosts.size .captureRule).Ignores
      world.hosts.size := trivial
  have hequipped := hrestarted.changeHost world.hosts.size fun hhost =>
    hhost.setAttribute "capture" hcapture
  exact { hequipped with }

theorem World.ignores_start (id : HostId) : World.start.Ignores id where
  cell _ := ⟨trivial, trivial, trivial, trivial, trivial, trivial, nofun, .empty, .empty⟩
  host _ :=
    ⟨nofun, nofun, nofun, nofun, nofun, nofun, nofun, .empty, .empty, fun _ => .empty, .empty⟩
  openStacks _ := .nil
  lists _ := .nil
  records _ := .empty
  extras := .empty
  globals := .empty
  frame := .empty

/-- A parser that is made where nothing refers to the tables that it is going to have is the only
one to refer to them, whatever is registered on it that does not. -/
theorem newRequested_ignores (hworld : world.Ignores world.hosts.size) {requests : List Request}
    (hgiven : ∀ request ∈ requests, ∀ label rule,
      request.accepted? = some (label, .given rule) → rule.Ignores world.hosts.size)
    (rounds depth : Nat) :
    ∃ results after,
      (newRequested (Kernel.ofDepth rounds (depth + 3)) requests).outcome world =
        (.ok (world.hosts.size, results), after) ∧
      after.Registers world.hosts.size ∧ after.Ignores world.hosts.size := by
  obtain ⟨results, hrun, _⟩ := @newRequested_outcome world rounds depth requests
  refine ⟨results, _, hrun, World.registers_addEquipped.withRegister _, ?_⟩
  have hnone : Record.Ignores world.hosts.size .empty := .empty
  exact hworld.addEquipped.withRegister
    (@Register.ignores_enterAll _ ⟨.empty, .empty, _, _⟩ hnone _ hgiven)

end New

/-! ## What comes of a parse -/

/-- Without the added rules a parse under the guard comes to what it comes to with them. -/
theorem Extension.Follows.drawnParse {ext : Extension} {outer : Guard}
    (hwithin : ext.guard.Within outer) (rounds depth reach : Nat) (text : String) :
    ext.Follows (fun _ => True)
      (Rulebook.drawnParse (ext.guard.kernel .null rounds depth) reach ext.id text)
      (Rulebook.drawnParse (outer.kernel .null rounds depth) reach ext.id text) :=
  have hcalls := ext.calls_kernel hwithin .null rounds depth
  (hcalls.sendHost ext.id "parse" (.cons (.text text) .nil)).bind
    fun _ htree => pictureWithin reach [] htree

/-- The rules of a parser suffice for a text: the parse comes to a tree, the scripts that it calls
leave the tables alone and ask for no rules but these, and none of its steps runs out of rules. -/
structure World.Suffices (world : World) (id : HostId) (rounds depth reach : Nat) (text : String)
    (tree : Datum) (parsed : World) : Prop where
  parses : (drawnParse (Kernel.ofDepth rounds depth) reach id text).outcome world =
    (.ok tree, parsed)
  keeps : wasCutOff ((drawnParse ((Guard.sufficing id (world.record (.rules id)).keys).kernel .null
    rounds depth) reach id text).outcome world).1 = false

/-- Nothing is added where nothing is. -/
theorem Extension.Fits.beside_self {ext : Extension} {world : World} (hfits : ext.Fits world)
    (hmore : ext.more = []) : ext.Beside world world := by
  refine ⟨hfits, (world.host ext.id).ownPatterns, world.notices, ?_⟩
  have hwide : ext.wide = (world.host ext.id).ownRules := by
    rw [Extension.wide, hmore, List.append_nil, hfits.rules]
  rw [Extension.widen, hwide, World.withTables_self]

/-- Of two tables that a world has in turn only the second matters. -/
theorem Extension.widen_widen (first second : Extension) (hid : first.id = second.id)
    (patterns : Record) (notices : Array Notice) (patterns' : Record) (notices' : Array Notice)
    (world : World) :
    second.widen patterns' notices' (first.widen patterns notices world) =
      second.widen patterns' notices' world := by
  have hhosts : ((world.withTables second.id first.wide patterns).withTables second.id second.wide
      patterns').hosts = (world.withTables second.id second.wide patterns').hosts :=
    congrArg World.hosts (World.withTables_withTables _ _ _ _)
  rw [Extension.widen, Extension.widen, Extension.widen, hid]
  exact congrArg (fun hosts => ({ world with hosts, notices := notices' } : World)) hhosts

/-- Where the rules of a parser suffice for a text, it comes to the same tree with the added rules,
and the worlds that are left differ in the tables and in the notices alone. No added rule is looked
up: that no other rules are asked for may be watched as well. -/
theorem World.Suffices.extended {ext : Extension} {world world' parsed : World} {tree : Datum}
    {rounds depth reach : Nat} {text : String} (hbeside : ext.Beside world world')
    (hsuffices : world.Suffices ext.id rounds depth reach text tree parsed) :
    (∃ patterns notices,
      (drawnParse (Kernel.ofDepth rounds depth) reach ext.id text).outcome world' =
        (.ok tree, ext.widen patterns notices parsed)) ∧
    ((drawnParse (ext.guard.kernel .null rounds depth) reach ext.id text).outcome world').1 =
      .ok tree := by
  let alone : Extension := ⟨ext.id, ext.rules, []⟩
  have hrecord : world.record (.rules ext.id) = ext.rules := hbeside.fits.rules
  have hkeeps := hsuffices.keeps
  rw [hrecord] at hkeeps
  have hparses := hsuffices.parses
  rw [← Guard.kernel_none .null] at hparses
  -- the guard does not cut off the run under it, so each of the others goes along with that
  have halong : ∀ {more : List (Key × Entry)} {outer : Guard} {other : World},
      (⟨ext.id, ext.rules, more⟩ : Extension).Beside world other → ext.guard.Within outer →
      (⟨ext.id, ext.rules, more⟩ : Extension).GoesAlong (fun _ => True)
        ((drawnParse (ext.guard.kernel .null rounds depth) reach ext.id text).outcome world)
        ((drawnParse (outer.kernel .null rounds depth) reach ext.id text).outcome other) := by
    intro more outer other hother hwithin
    have hfollows := @Extension.Follows.drawnParse ⟨ext.id, ext.rules, more⟩ outer hwithin rounds
      depth reach text
    refine (hfollows world other hother).resolve_left fun hcut => ?_
    exact absurd (hcut.symm.trans hkeeps) (by decide)
  -- the run under the guard beside the one without it tells what the tree is
  have hself : alone.Beside world world :=
    Extension.Fits.beside_self ⟨hbeside.fits.ignores, hbeside.fits.present, hbeside.fits.rules⟩ rfl
  have hfree := halong hself (Guard.within_none _)
  rw [hparses] at hfree
  have htree := hfree.result.symm
  obtain ⟨patterns, notices, hparsed⟩ := hfree.beside.widened
  have hwide := halong hbeside (Guard.within_none _)
  have hwatched := halong hbeside (Guard.Within.refl _)
  obtain ⟨patterns', notices', hworld⟩ := hwide.beside.widened
  rw [Guard.kernel_none] at hwide hworld
  refine ⟨⟨patterns', notices', Prod.ext (hwide.result.trans htree) ?_⟩,
    hwatched.result.trans htree⟩
  rw [hworld]
  have hsame := alone.widen_widen ext rfl patterns notices patterns' notices'
    ((drawnParse (ext.guard.kernel .null rounds depth) reach ext.id text).outcome world).2
  rw [← hsame]
  exact congrArg (ext.widen patterns' notices') hparsed.symm

/-- A parser has rules, and nothing else refers to its tables. Whatever requests are made of it
then, some of which may be refused, that register rules under new labels alone: they come behind
the rules that were there, and every text that those suffice for comes to the same tree as before.
The world that the parse leaves is the same but for the tables and the notices, and no rule is
looked up under a new label. The requests take serial numbers; what is parsed counts on from any
number. -/
theorem parse_extended {world : World} {id : HostId} (hregisters : world.Registers id)
    (hignores : world.Ignores id) {requests : List Request}
    (hnew : ∀ label ∈ registeredLabels requests,
      Key.text label ∉ (world.record (.rules id)).keys) (rounds depth : Nat) :
    ∃ results after,
      (requestAll (Kernel.ofDepth rounds (depth + 3)) id requests).outcome world =
        (.ok results, after) ∧
      Reported requests results ∧
      (after.record (.rules id)).keys =
        (world.record (.rules id)).keys ++ (registeredLabels requests).map Key.text ∧
      ∀ rounds depth reach text last tree parsed,
        (world.withSerial last).Suffices id rounds depth reach text tree parsed →
        (∃ patterns notices, (drawnParse (Kernel.ofDepth rounds depth) reach id text).outcome
            (after.withSerial last) = (.ok tree,
              { parsed.withTables id (after.record (.rules id)) patterns with notices })) ∧
        ((drawnParse ((Guard.sufficing id (world.record (.rules id)).keys).kernel .null
          rounds depth) reach id text).outcome (after.withSerial last)).1 = .ok tree := by
  obtain ⟨results, hrun, hreported⟩ := @requestAll_outcome _ _ rounds depth hregisters requests
  let register := requests.foldl Register.enter (world.register id)
  let added := (requests.foldl Register.enter ⟨.empty, .empty, world.notices, world.serial⟩).rules
  let ext : Extension := ⟨id, world.record (.rules id), added.entries⟩
  -- the requests do to an empty table what they do behind the rules that were there
  have hwide : register.rules = ext.wide := by
    have hstart : Register.Extends (world.record (.rules id)) (world.register id)
        ⟨.empty, .empty, world.notices, world.serial⟩ := ⟨(List.append_nil _).symm, rfl⟩
    have haccepted : ∀ request ∈ requests, ∀ entry ∈ request.accepted?,
        Key.text entry.1 ∉ (world.record (.rules id)).keys := fun request hrequest entry hentry =>
      hnew entry.1 (List.mem_eraseDups.mpr (List.mem_map.mpr
        ⟨entry, List.mem_filterMap.mpr ⟨request, hrequest, hentry⟩, rfl⟩))
    exact congrArg Table.mk (hstart.enterAll haccepted).rules
  have hadded : added.keys = (registeredLabels requests).map Key.text := by
    obtain ⟨entries, htells, hhistory⟩ :=
      Register.exists_tells world.notices world.serial requests
    rw [htells.keys_rules, hhistory, registeredLabels]
  have hrecord : (world.withRegister id register).record (.rules id) = ext.wide :=
    (congrArg Register.rules
      (World.register_withRegister register hregisters.plain.present)).trans hwide
  refine ⟨results, _, hrun, hreported, ?_, ?_⟩
  · rw [hrecord, ← hadded]
    exact List.map_append
  · intro rounds depth reach text last tree parsed hsuffices
    have hbeside : ext.Beside (world.withSerial last)
        ((world.withRegister id register).withSerial last) := by
      refine ⟨⟨{ hignores with }, hregisters.plain.present, rfl⟩, register.patterns,
        register.notices, ?_⟩
      rw [World.withRegister, hwide]
      rfl
    rw [hrecord]
    exact hsuffices.extended hbeside

/-- How many nodes a picture shows below another. -/
def Datum.branches : Datum → Nat
  | .record fields =>
    match fields.lookup "nodes" with
    | some (.list items) => items.length
    | _ => 0
  | _ => 0

theorem exists_of_branches {ending : Except Fault Datum × World} {count : Nat}
    (hcount : ending.1.toOption.map Datum.branches = some count) :
    ∃ tree after, ending = (.ok tree, after) ∧ tree.branches = count := by
  obtain ⟨result, after⟩ := ending
  cases result with
  | error fault => cases hcount
  | ok tree => exact ⟨tree, after, rfl, Option.some.inj hcount⟩

/-- A letter, and a rule that applies that for a letter between two angles. -/
def enclosing : List Request :=
  [.capture (.text "letter") (.text "[a-z]") "",
    .set "enclosed" (.callback 0 "enclosed"
      [.act (.send "self" "match" [.datum (.text "<")] []) (some "opening"),
        .branch (.present (.var "opening"))
          [.act (.send "self" "apply" [.datum (.text "letter")] []) none,
            .act (.send "self" "match" [.datum (.text ">")] []) none] []])]

/-- A pattern for every character, what cannot be called, and a capture that is refused. -/
def unneeded : List Request :=
  [.capture (.text "any") (.text ".") "", .set "broken" .null, .capture (.text "") (.text "c") ""]

def enclosingWorld : World := ((newRequested (Kernel.ofDepth 12 12) enclosing).outcome .start).2

theorem enclosingWorld_ready : enclosingWorld.Registers 0 ∧ enclosingWorld.Ignores 0 := by
  have hgiven : ∀ request ∈ enclosing, ∀ label rule,
      request.accepted? = some (label, .given rule) → rule.Ignores World.start.hosts.size := by
    intro request hrequest label rule haccepted
    rcases List.mem_cons.mp hrequest with rfl | hrest
    · simp [Request.accepted?, Value.origin?, Value.isCallable] at haccepted
    · cases List.mem_singleton.mp hrest
      cases haccepted
      trivial
  obtain ⟨_, world, hrun, hready⟩ := newRequested_ignores (World.ignores_start _) hgiven 12 9
  rw [enclosingWorld, hrun]
  exact hready

theorem parse_extended_enclosing :
    ∃ tree parsed results after,
      (enclosingWorld.withSerial 40).Suffices 0 12 12 9 "a<b>" tree parsed ∧
      (requestAll (Kernel.ofDepth 12 12) 0 unneeded).outcome enclosingWorld =
        (.ok results, after) ∧
      ((drawnParse (Kernel.ofDepth 12 12) 9 0 "a<b>").outcome (after.withSerial 40)).1 =
        .ok tree := by
  have hcount : ((drawnParse (Kernel.ofDepth 12 12) 9 0 "a<b>").outcome
      (enclosingWorld.withSerial 40)).1.toOption.map Datum.branches = some 2 := by decide +kernel
  obtain ⟨tree, parsed, htree, _⟩ := exists_of_branches hcount
  have hsuffices : (enclosingWorld.withSerial 40).Suffices 0 12 12 9 "a<b>" tree parsed :=
    ⟨htree, by decide +kernel⟩
  obtain ⟨hregisters, hignores⟩ := enclosingWorld_ready
  obtain ⟨results, after, hrequests, _, _, hall⟩ :=
    @parse_extended _ _ hregisters hignores unneeded (by decide +kernel) 12 9
  obtain ⟨⟨_, _, hparse⟩, _⟩ := hall 12 12 9 "a<b>" 40 tree parsed hsuffices
  exact ⟨tree, parsed, results, after, hsuffices, hrequests, congrArg Prod.fst hparse⟩

/-- A rule for a letter that first reads another text. If that cannot be read, it gives a node. -/
def retryScript : List Stmt :=
  [.act (.send "self" "match" [.datum (.text "a")] []) (some "letter"),
    .branch (.present (.var "letter"))
      [.attempt
        [.act (.send "self" "parse" [.datum (.text "z")] []) none,
          .act (.send "self" "reset" [.datum (.text "a")] []) none,
          .act (.send "self" "match" [.datum (.text "a")] []) none]
        "fault"
        [.act (.send "self" "reset" [.datum (.text "a")] []) none,
          .act (.send "self" "position" [] []) (some "start"),
          .act (.send "self" "match" [.datum (.text "a")] []) none,
          .act (.send "self" "node" [.var "start", .datum (.text "stuck")] []) (some "node"),
          .give (.var "node")]] []]

def retryWorld : World :=
  ((newRequested (Kernel.ofDepth 12 12) [.set "top" (.callback 0 "top" retryScript)]).outcome
    .start).2

/-- A rule that keeps to the table can tell, without looking into it, that there is a rule more: it
starts a step that runs out of rules, and catches the complaint. -/
theorem retry_notices_rule :
    ∃ after tree tree',
      ((requestAll (Kernel.ofDepth 12 12) 0 [.capture (.text "x") (.text "z") ""]).outcome
        retryWorld).2 = after ∧
      (retryWorld.record (.rules 0)).keys = [.text "top"] ∧
      wasCutOff ((drawnParse ((Guard.among 0 [.text "top"]).kernel .null 12 12) 9 0 "a").outcome
        retryWorld).1 = false ∧
      ((drawnParse (Kernel.ofDepth 12 12) 9 0 "a").outcome retryWorld).1 = .ok tree ∧
      ((drawnParse (Kernel.ofDepth 12 12) 9 0 "a").outcome after).1 = .ok tree' ∧
      tree ≠ tree' := by
  -- alone the rule catches the complaint about `z` and gives a node, with one for `z` it does not
  have hone : ((drawnParse (Kernel.ofDepth 12 12) 9 0 "a").outcome
      retryWorld).1.toOption.map Datum.branches = some 1 := by decide +kernel
  have hnone : ((drawnParse (Kernel.ofDepth 12 12) 9 0 "a").outcome
      ((requestAll (Kernel.ofDepth 12 12) 0 [.capture (.text "x") (.text "z") ""]).outcome
        retryWorld).2).1.toOption.map Datum.branches = some 0 := by decide +kernel
  obtain ⟨tree, _, htree, hbranch⟩ := exists_of_branches hone
  obtain ⟨tree', _, htree', hbare⟩ := exists_of_branches hnone
  refine ⟨_, tree, tree', rfl, by decide +kernel, by decide +kernel, congrArg Prod.fst htree,
    congrArg Prod.fst htree', ?_⟩
  rintro rfl
  exact absurd (hbranch.symm.trans hbare) (by decide)

end Rulebook
