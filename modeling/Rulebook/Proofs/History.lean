import Mathlib.Data.List.Induction
import Rulebook.Proofs.Capturing

/-!
# Histories of registrations

A parser is registered on by calls of `capture` and `set`, some of which may be refused. What they
leave behind is told exactly: the two tables of the parser, a notice, and the serial numbers that
were used up. Both tables follow from the calls that were not refused, in their order: a label
stands where it first came in, with what it was last given.
-/

namespace Rulebook

open Run

/-! ## The later ones over the earlier -/

section Table

variable {κ α : Type} [DecidableEq κ]

theorem Table.ofList_concat (entries : List (κ × α)) (key : κ) (entry : α) :
    Table.ofList (entries ++ [(key, entry)]) = (Table.ofList entries).insert key entry :=
  List.foldl_concat ..

/-- The keys are in the order in which they first came. -/
theorem Table.keys_ofList (entries : List (κ × α)) :
    (Table.ofList entries).keys = (entries.map Prod.fst).eraseDups := by
  induction entries using List.reverseRecOn with
  | nil => rfl
  | append_singleton entries last ih =>
      obtain ⟨key, entry⟩ := last
      rw [Table.ofList_concat, Table.keys_insert, ih, List.map_append, List.eraseDups_append]
      by_cases hkey : key ∈ entries.map Prod.fst
      · rw [if_pos (List.mem_eraseDups.mpr hkey)]
        simp [List.removeAll, hkey]
      · rw [if_neg (mt List.mem_eraseDups.mp hkey)]
        simp [List.removeAll, hkey, List.eraseDups_cons]

/-- Under a key is what came last under it. -/
theorem Table.get?_ofList (entries : List (κ × α)) (key : κ) :
    (Table.ofList entries).get? key = entries.reverse.lookup key := by
  induction entries using List.reverseRecOn with
  | nil => rfl
  | append_singleton entries last ih =>
      obtain ⟨other, entry⟩ := last
      rw [Table.ofList_concat, Table.get?_insert, ih, List.reverse_append, List.reverse_singleton,
        List.singleton_append, List.lookup_cons]
      by_cases hkey : key = other
      · rw [if_pos hkey, hkey, beq_self_eq_true]
      · rw [if_neg hkey, beq_false_of_ne hkey]

theorem Table.nodup_ofList (entries : List (String × α)) : (Table.ofList entries).keys.Nodup := by
  induction entries using List.reverseRecOn with
  | nil => exact .nil
  | append_singleton entries last ih =>
      obtain ⟨key, entry⟩ := last
      rw [Table.ofList_concat]
      exact Table.nodup_insert _ entry ih

end Table

/-! ## Requests -/

/-- A call that registers a rule: `capture` with whatever it is given, or `set`. -/
inductive Request
  | capture (label matcher : Value) (flags : String)
  | set (label : String) (rule : Value)

/-- Where a rule comes from: it was given as it is, or made from a pattern. -/
inductive Origin
  | given (rule : Value)
  | captured (pattern : Pattern)

/-- What a value comes to as a pattern over text under flags. -/
def Value.pattern? (flags : String) : Value → Option Pattern
  | .text source => (Matcher.source source).pattern? flags
  | .pattern compiled => (Matcher.compiled compiled).pattern? flags
  | _ => none

/-- Where the rule comes from that is captured, unless the capture is refused. -/
def Value.origin? (matcher : Value) (flags : String) : Option Origin :=
  if matcher.isCallable then if flags = "" then some (.given matcher) else none
  else (matcher.pattern? flags).map .captured

/-- The label that a request registers a rule under, and where the rule comes from, unless the
request is refused. -/
def Request.accepted? : Request → Option (String × Origin)
  | .set label rule => some (label, .given rule)
  | .capture (.text label) matcher flags =>
    if label = "" then none else (matcher.origin? flags).map fun origin => (label, origin)
  | .capture _ _ _ => none

/-- What requests register that are not refused, from the first to the last. -/
def history (requests : List Request) : List (String × Origin) :=
  requests.filterMap Request.accepted?

/-- Makes a request of a parser. -/
def Request.run (kernel : Kernel) (id : HostId) : Request → Run Value
  | .capture label matcher flags => kernel.sendHost id "capture" [label, matcher, .text flags]
  | .set label rule => kernel.sendHost id "set" [.text label, rule]

/-- Makes one request after another, whether the ones before were refused or not. -/
def requestAll (kernel : Kernel) (id : HostId) : List Request → Run (List (Except Fault Value))
  | [] => return []
  | request :: rest => do
    let result ← Run.observe (request.run kernel id)
    return result :: (← requestAll kernel id rest)

/-- A new parser with `capture` installed, of which requests were made. It comes with what they
gave. -/
def newRequested (kernel : Kernel) (requests : List Request) :
    Run (HostId × List (Except Fault Value)) := do
  let id ← Run.newParser .parser .null
  let _ ← install kernel (.host id) .null
  return (id, ← requestAll kernel id requests)

/-! ## What requests leave behind -/

/-- What requests of a parser change: its two records, the notices, and the next serial number. -/
structure Register where
  rules : Record
  patterns : Record
  notices : Array Notice
  serial : Nat

namespace Register

/-- The register with a rule written under a label. -/
def setRule (register : Register) (label : String) (rule : Value) : Register :=
  { register with rules := register.rules.write (.text label) (.text label) rule }

/-- The register with a pattern written under a label. -/
def setPattern (register : Register) (label : String) (pattern : Pattern) : Register :=
  { register with
    patterns := register.patterns.write (.text label) (.text label) (.pattern pattern) }

/-- The register with a notice more. -/
def notify (register : Register) (notice : Notice) : Register :=
  { register with notices := register.notices.push notice }

/-- The register with serial numbers used up. -/
def skip (register : Register) (count : Nat) : Register :=
  { register with serial := register.serial + count }

/-- The register after a rule was captured. A rule made from a pattern takes a serial number, and so
does the call that sets a rule. -/
def capture (register : Register) (label : String) : Origin → Register
  | .given rule => ((register.notify (.callbackRule label)).setRule label rule).skip 1
  | .captured pattern =>
    (((register.setPattern label pattern).notify
      (.patternRule label (Text.quoted pattern.source))).setRule label
        (.patternRule register.serial ("capture_" ++ label) (.text label) (.pattern pattern))).skip 2

/-- The register after a request. -/
def enter (register : Register) : Request → Register
  | .set label rule => (register.setRule label rule).skip 1
  | .capture label matcher flags =>
    match (Request.capture label matcher flags).accepted? with
    | some (label, origin) => register.capture label origin
    | none => register

end Register

namespace World

/-- What requests of a parser have left in a world. -/
def register (world : World) (id : HostId) : Register where
  rules := (world.host id).ownRules
  patterns := (world.host id).ownPatterns
  notices := world.notices
  serial := world.serial

/-- The world with the records of a parser replaced. -/
def withTables (world : World) (id : HostId) (rules patterns : Record) : World :=
  world.changeHost id fun host => { host with ownRules := rules, ownPatterns := patterns }

/-- The world with something else left by requests of a parser. -/
def withRegister (world : World) (id : HostId) (register : Register) : World :=
  { world.withTables id register.rules register.patterns with
    notices := register.notices, serial := register.serial }

/-- A parser of its own class that registers in the records it was made with. -/
structure Registers (world : World) (id : HostId) : Prop where
  plain : world.Plain id
  rules : (world.host id).rules = some (.record (.rules id))
  patterns : (world.host id).patterns = some (.record (.patterns id))
  capture : ∃ serial, (world.host id).members.get? "capture" =
    some (.bound serial id .captureRule)

variable {world : World} {id : HostId}

theorem withTables_self :
    world.withTables id (world.host id).ownRules (world.host id).ownPatterns = world :=
  changeHost_self rfl

theorem withTables_withTables (rules patterns rules' patterns' : Record) :
    (world.withTables id rules patterns).withTables id rules' patterns' =
      world.withTables id rules' patterns' :=
  changeHost_changeHost _ _

/-- A register is put into a world that has its records already. -/
theorem withRegister_of (register : Register) {changed : World}
    (hchanged : world.withTables id register.rules register.patterns = changed) :
    world.withRegister id register =
      { changed with notices := register.notices, serial := register.serial } := by
  rw [withRegister, hchanged]

theorem withRegister_register : world.withRegister id (world.register id) = world :=
  withRegister_of (world.register id) withTables_self

theorem withRegister_withRegister (first second : Register) :
    (world.withRegister id first).withRegister id second = world.withRegister id second := by
  have htables : (world.withTables id first.rules first.patterns).withTables id second.rules
      second.patterns = world.withTables id second.rules second.patterns :=
    withTables_withTables _ _ _ _
  exact congrArg (fun changed : World =>
    { changed with notices := second.notices, serial := second.serial }) htables

theorem host_withRegister (register : Register) (hpresent : id < world.hosts.size) :
    (world.withRegister id register).host id =
      { world.host id with ownRules := register.rules, ownPatterns := register.patterns } := by
  change (world.changeHost id _).host id = _
  rw [host_changeHost, if_pos ⟨rfl, hpresent⟩]

theorem register_withRegister (register : Register) (hpresent : id < world.hosts.size) :
    (world.withRegister id register).register id = register := by
  rw [World.register, host_withRegister register hpresent]
  rfl

theorem Registers.withRegister (hregisters : world.Registers id) (register : Register) :
    (world.withRegister id register).Registers id := by
  have hhost := host_withRegister register hregisters.plain.present
  have hsize : (world.withRegister id register).hosts.size = world.hosts.size := by
    simp [World.withRegister, withTables, changeHost]
  exact
    { plain := hregisters.plain.congr hsize (by rw [hhost]) (by rw [hhost])
      rules := by rw [hhost]; exact hregisters.rules
      patterns := by rw [hhost]; exact hregisters.patterns
      capture := by rw [hhost]; exact hregisters.capture }

end World

section Outcome

variable {world : World} {id : HostId} {rounds depth : Nat}

theorem World.Registers.captures (hregisters : world.Registers id) :
    world.Captures id (.rules id) (.patterns id) where
  set := hregisters.plain.method? .set
  unreplaced := hregisters.plain.members .set
  hasRules := hregisters.plain.present
  hasPatterns := hregisters.plain.present
  rules := hregisters.rules
  patterns := hregisters.patterns

theorem sendSet_outcome (hregisters : world.Registers id) (label : String) (rule : Value) :
    ((Kernel.ofDepth rounds (depth + 1)).sendHost id "set" [.text label, rule]).outcome world =
      (.ok (.host id),
        world.withRegister id (((world.register id).setRule label rule).skip 1)) := by
  let changed := ((world.register id).setRule label rule).skip 1
  have htables : world.withTables id changed.rules changed.patterns =
      world.writeUnder (.rules id) label rule := World.changeHost_congr rfl
  rw [sendSet_writes hregisters.captures, World.withRegister_of changed htables]
  rfl

theorem enterPattern_outcome (hregisters : world.Registers id) (label : String)
    (pattern : Pattern) :
    (enterPattern (Kernel.ofDepth rounds (depth + 1)) (.host id) label pattern).outcome world =
      (.ok (.host id),
        world.withRegister id ((world.register id).capture label (.captured pattern))) := by
  rw [enterPattern_enters hregisters.captures]
  let changed := (world.register id).capture label (.captured pattern)
  have htables : world.withTables id changed.rules changed.patterns =
      (world.writeUnder (.patterns id) label (.pattern pattern)).writeUnder (.rules id) label
        (.patternRule world.serial ("capture_" ++ label) (.text label) (.pattern pattern)) := by
    rw [World.writeUnder, World.writeUnder, World.changeRecord, World.changeRecord,
      World.changeHost_changeHost]
    exact World.changeHost_congr rfl
  rw [World.withRegister_of changed htables]
  rfl

theorem captureCallable_outcome (hregisters : world.Registers id) (label flags : String)
    (matcher : Value) :
    (captureCallable (Kernel.ofDepth rounds (depth + 1)) (.host id) label matcher
        (.text flags)).outcome world =
      if flags = "" then
        (.ok (.host id), world.withRegister id ((world.register id).capture label (.given matcher)))
      else (.error (.flagsNeedSource label), world) := by
  by_cases hflags : flags = ""
  · subst hflags
    let changed := (world.register id).capture label (.given matcher)
    have htables : world.withTables id changed.rules changed.patterns =
        world.writeUnder (.rules id) label matcher := World.changeHost_congr rfl
    rw [captureCallable_enters hregisters.captures, if_pos rfl,
      World.withRegister_of changed htables]
    rfl
  · rw [if_neg hflags]
    exact captureCallable_flagged _ _ label matcher hflags

section Label

variable {label flags : String} {matcher : Value}

theorem capture_accepted (hregisters : world.Registers id) (hlabel : label ≠ "") {origin : Origin}
    (horigin : matcher.origin? flags = some origin) :
    (capture (Kernel.ofDepth rounds (depth + 1)) (.host id) (.text label) matcher
        (.text flags)).outcome world =
      (.ok (.host id), world.withRegister id ((world.register id).capture label origin)) := by
  rw [capture_label _ _ hlabel]
  rw [Value.origin?] at horigin
  split at horigin
  next hcallable =>
    rw [if_pos hcallable, captureCallable_outcome hregisters]
    split at horigin
    next hflags =>
      cases horigin
      rw [if_pos hflags]
    next => cases horigin
  next hcallable =>
    rw [if_neg hcallable]
    obtain ⟨pattern, hpattern, rfl⟩ := Option.map_eq_some_iff.mp horigin
    rw [← @enterPattern_outcome _ _ rounds depth hregisters]
    cases matcher with
    | text source =>
        have hsource : (Matcher.source source).pattern? flags = some pattern := hpattern
        exact capturePattern_taken hsource world
    | pattern compiled =>
        have hcompiled : (Matcher.compiled compiled).pattern? flags = some pattern := hpattern
        exact capturePattern_taken hcompiled world
    | _ => cases hpattern

theorem capture_refused (hregisters : world.Registers id) (hlabel : label ≠ "")
    (horigin : matcher.origin? flags = none) :
    ∃ fault, (capture (Kernel.ofDepth rounds (depth + 1)) (.host id) (.text label) matcher
        (.text flags)).outcome world = (.error fault, world) := by
  rw [capture_label _ _ hlabel]
  rw [Value.origin?] at horigin
  split at horigin
  next hcallable =>
    rw [if_pos hcallable, captureCallable_outcome hregisters]
    split at horigin
    next => cases horigin
    next hflags => exact ⟨_, if_neg hflags⟩
  next hcallable =>
    rw [if_neg hcallable]
    have hpattern := Option.map_eq_none_iff.mp horigin
    cases matcher with
    | text source =>
        have hsource : (Matcher.source source).pattern? flags = none := hpattern
        exact capturePattern_refused hsource world
    | pattern compiled =>
        have hcompiled : (Matcher.compiled compiled).pattern? flags = none := hpattern
        exact capturePattern_refused hcompiled world
    | _ => exact ⟨_, rfl⟩

end Label

theorem sendCapture_outcome (hregisters : world.Registers id) (label matcher flags : Value) :
    ((Kernel.ofDepth rounds (depth + 3)).sendHost id "capture" [label, matcher, flags]).outcome
        world =
      (capture (Kernel.ofDepth rounds (depth + 1)) (.host id) label matcher flags).outcome world := by
  obtain ⟨serial, hmember⟩ := hregisters.capture
  have hpart : (world.host id).attribute? "capture" = some (.bound serial id .captureRule) :=
    hmember
  have hlook : (attributeOf (.host id) "capture").outcome world =
      (.ok (.bound serial id .captureRule), world) := attributeOf_look hpart rfl world.serial
  exact outcome_bind_ok hlook

/-- A request changes the register if it is accepted, and nothing otherwise. -/
theorem request_outcome (hregisters : world.Registers id) (request : Request) :
    ∃ result, (request.run (Kernel.ofDepth rounds (depth + 3)) id).outcome world =
        (result, world.withRegister id ((world.register id).enter request)) ∧
      ((∃ value, result = .ok value) ↔ ∃ entry, request.accepted? = some entry) := by
  have hrefused : ∀ {run : Run Value} {fault : Fault}, run.outcome world = (.error fault, world) →
      run.outcome world = (.error fault, world.withRegister id (world.register id)) := by
    intro run fault houtcome
    rwa [World.withRegister_register]
  cases request with
  | set label rule =>
      refine ⟨_, sendSet_outcome hregisters label rule, ?_⟩
      exact ⟨fun _ => ⟨_, rfl⟩, fun _ => ⟨_, rfl⟩⟩
  | capture label matcher flags =>
      simp only [Request.run, sendCapture_outcome hregisters]
      cases label with
      | text label =>
          by_cases hlabel : label = ""
          · subst hlabel
            exact ⟨_, hrefused rfl, by simp [Request.accepted?]⟩
          · cases horigin : matcher.origin? flags with
            | some origin =>
                simp only [Register.enter, Request.accepted?, if_neg hlabel, horigin, Option.map_some]
                refine ⟨_, capture_accepted hregisters hlabel horigin, ?_⟩
                exact ⟨fun _ => ⟨_, rfl⟩, fun _ => ⟨_, rfl⟩⟩
            | none =>
                simp only [Register.enter, Request.accepted?, if_neg hlabel, horigin, Option.map_none]
                obtain ⟨fault, hfault⟩ := capture_refused hregisters hlabel horigin
                exact ⟨_, hrefused hfault, by simp⟩
      | _ => exact ⟨_, hrefused rfl, by simp [Request.accepted?]⟩

/-- The results of requests tell which of them were accepted. -/
def Reported (requests : List Request) (results : List (Except Fault Value)) : Prop :=
  List.Forall₂ (fun request result =>
    (∃ value, result = .ok value) ↔ ∃ entry, request.accepted? = some entry) requests results

theorem requestAll_outcome (hregisters : world.Registers id) (requests : List Request) :
    ∃ results, (requestAll (Kernel.ofDepth rounds (depth + 3)) id requests).outcome world =
        (.ok results,
          world.withRegister id (requests.foldl Register.enter (world.register id))) ∧
      Reported requests results := by
  induction requests generalizing world with
  | nil => exact ⟨[], by rw [List.foldl_nil, World.withRegister_register]; rfl, .nil⟩
  | cons request rest ih =>
      let entered := (world.register id).enter request
      obtain ⟨result, hrequest, hreported⟩ := @request_outcome _ _ rounds depth hregisters request
      obtain ⟨results, hrest, hall⟩ := ih (hregisters.withRegister entered)
      rw [World.withRegister_withRegister,
        World.register_withRegister entered hregisters.plain.present] at hrest
      refine ⟨result :: results, ?_, .cons hreported hall⟩
      have hobserve : (observe (request.run (Kernel.ofDepth rounds (depth + 3)) id)).outcome
          world = (.ok result, world.withRegister id entered) := by
        rw [outcome_observe, hrequest]
      refine (outcome_bind_ok hobserve).trans ?_
      exact outcome_bind_ok hrest

theorem World.registers_addEquipped : world.addEquipped.Registers world.hosts.size := by
  have hequipped := @World.equipped_addCapture world (world.serial + 1)
  exact
    { plain := hequipped.plain.congr rfl rfl rfl
      rules := hequipped.ruled.rules
      patterns := hequipped.patterns
      capture := hequipped.capture }

/-- Nothing is registered on a new parser. -/
theorem World.register_addEquipped :
    world.addEquipped.register world.hosts.size =
      ⟨.empty, .empty, world.notices.push (.installed .parser), world.serial + 2⟩ := by
  have hhost : world.addEquipped.host world.hosts.size =
      (world.addParser.host world.hosts.size).setAttribute "capture"
        (.bound (world.serial + 1) world.hosts.size .captureRule) := by
    change (World.changeHost _ _ _).host _ = _
    rw [host_changeHost, if_pos ⟨rfl, hosts_addParser⟩]
  rw [World.register, hhost, host_addParser]
  rfl

/-- Requests of a new parser leave behind what each of them makes of the register in turn. -/
theorem newRequested_outcome (requests : List Request) :
    ∃ results, (newRequested (Kernel.ofDepth rounds (depth + 3)) requests).outcome world =
        (.ok (world.hosts.size, results),
          world.addEquipped.withRegister world.hosts.size (requests.foldl Register.enter
            ⟨.empty, .empty, world.notices.push (.installed .parser), world.serial + 2⟩)) ∧
      Reported requests results := by
  obtain ⟨results, hall, hreported⟩ :=
    @requestAll_outcome _ _ rounds depth World.registers_addEquipped requests
  rw [World.register_addEquipped] at hall
  refine ⟨results, ?_, hreported⟩
  refine (outcome_bind_ok newParser_outcome).trans ?_
  refine (outcome_bind_ok install_outcome).trans ?_
  exact outcome_bind_ok hall

end Outcome

/-! ## The tables that follow from a history -/

/-- The rule with an origin, if it has a serial number of its own. -/
def Origin.value (serial : Nat) (label : String) : Origin → Value
  | .given rule => rule
  | .captured pattern =>
    .patternRule serial ("capture_" ++ label) (.text label) (.pattern pattern)

/-- The pattern that a rule was made from, unless it was given as it is. -/
def Origin.pattern? : Origin → Option Pattern
  | .given _ => none
  | .captured pattern => some pattern

/-- The patterns that were captured among what was registered. -/
def capturedIn (entries : List (String × Origin)) : List (String × Pattern) :=
  entries.filterMap fun entry => entry.2.pattern?.map fun pattern => (entry.1, pattern)

/-- Entries without their serial numbers. -/
def unnumbered (entries : List (String × Nat × Origin)) : List (String × Origin) :=
  entries.map fun entry => (entry.1, entry.2.2)

/-- What was registered, each with the serial number it could take, is what a register tells. -/
structure Register.Tells (register : Register) (first : Nat)
    (entries : List (String × Nat × Origin)) : Prop where
  rules : List.Forall₂ (IsEntryOf fun label numbered value =>
    value = numbered.2.value numbered.1 label) register.rules.entries (Table.ofList entries).entries
  patterns : List.Forall₂ (IsEntryOf fun _ pattern value => value = .pattern pattern)
    register.patterns.entries
    (Table.ofList (capturedIn (unnumbered entries))).entries
  increasing : (entries.map fun entry => entry.2.1).Pairwise (· < ·)
  bounds : ∀ entry ∈ entries, first ≤ entry.2.1 ∧ entry.2.1 < register.serial
  le : first ≤ register.serial

namespace Register

variable {register after : Register} {first : Nat} {entries : List (String × Nat × Origin)}

/-- A register goes on telling what is registered when the rule is written, and its pattern. -/
theorem Tells.add (htells : register.Tells first entries) {label : String} {origin : Origin}
    (hrules : after.rules =
      register.rules.write (.text label) (.text label) (origin.value register.serial label))
    (hpatterns : after.patterns = match origin.pattern? with
      | some pattern => register.patterns.write (.text label) (.text label) (.pattern pattern)
      | none => register.patterns)
    (hserial : register.serial < after.serial) :
    after.Tells first (entries ++ [(label, register.serial, origin)]) where
  rules := by
    rw [hrules, Table.ofList_concat]
    exact write_entries htells.rules rfl
  patterns := by
    have hcaptured : capturedIn (unnumbered (entries ++ [(label, register.serial, origin)])) =
        capturedIn (unnumbered entries) ++
          (origin.pattern?.map fun pattern => (label, pattern)).toList := by
      rw [unnumbered, List.map_append, capturedIn, List.filterMap_append]
      cases hpattern : origin.pattern? <;> simp [hpattern, capturedIn, unnumbered]
    rw [hpatterns, hcaptured]
    cases hpattern : origin.pattern? with
    | none => simpa using htells.patterns
    | some pattern =>
        rw [Option.map_some, Option.toList_some, Table.ofList_concat]
        exact write_entries htells.patterns rfl
  increasing := by
    rw [List.map_append, List.pairwise_append]
    refine ⟨htells.increasing, List.pairwise_singleton _ _, ?_⟩
    intro serial hserial' last hlast
    obtain ⟨entry, hentry, rfl⟩ := List.mem_map.mp hserial'
    rw [List.map_singleton, List.mem_singleton] at hlast
    rw [hlast]
    exact (htells.bounds entry hentry).2
  bounds entry hentry := by
    rcases List.mem_append.mp hentry with hold | hnew
    · have hbounds := htells.bounds entry hold
      exact ⟨hbounds.1, Nat.lt_trans hbounds.2 hserial⟩
    · cases List.mem_singleton.mp hnew
      exact ⟨htells.le, hserial⟩
  le := Nat.le_of_lt (Nat.lt_of_le_of_lt htells.le hserial)

theorem tells_empty (notices : Array Notice) (first : Nat) :
    (Register.mk .empty .empty notices first).Tells first [] where
  rules := .nil
  patterns := .nil
  increasing := .nil
  bounds _ hentry := absurd hentry List.not_mem_nil
  le := Nat.le_refl first

/-- A request goes on with the history if it is accepted. -/
theorem Tells.enter (htells : register.Tells first entries) (request : Request) :
    ∃ entries', (register.enter request).Tells first entries' ∧
      unnumbered entries' = unnumbered entries ++ request.accepted?.toList := by
  have hadded : ∀ label origin, unnumbered (entries ++ [(label, register.serial, origin)]) =
      unnumbered entries ++ [(label, origin)] := fun _ _ => List.map_append
  cases request with
  | set label rule => exact ⟨_, htells.add rfl rfl (Nat.lt_succ_self _), hadded label _⟩
  | capture label matcher flags =>
      simp only [Register.enter]
      cases hentry : (Request.capture label matcher flags).accepted? with
      | none => exact ⟨entries, htells, (List.append_nil _).symm⟩
      | some entry =>
          obtain ⟨label, origin⟩ := entry
          refine ⟨_, ?_, hadded label origin⟩
          cases origin with
          | given rule => exact htells.add rfl rfl (Nat.lt_succ_self _)
          | captured pattern => exact htells.add rfl rfl (Nat.lt_add_of_pos_right Nat.two_pos)

/-- Requests leave a register that tells their history. -/
theorem exists_tells (notices : Array Notice) (first : Nat) (requests : List Request) :
    ∃ entries, (requests.foldl enter ⟨.empty, .empty, notices, first⟩).Tells first entries ∧
      unnumbered entries = history requests := by
  induction requests using List.reverseRecOn with
  | nil => exact ⟨[], tells_empty notices first, rfl⟩
  | append_singleton requests request ih =>
      obtain ⟨entries, htells, hentries⟩ := ih
      obtain ⟨entries', htells', hentries'⟩ := htells.enter request
      refine ⟨entries', ?_, ?_⟩
      · rw [List.foldl_concat]
        exact htells'
      · rw [hentries', hentries, history, history, List.filterMap_append]
        cases hentry : request.accepted? <;> simp [hentry]

end Register

/-- Requests of a new parser leave it with a register that tells their history. -/
theorem newRequested_gives {world : World} {rounds depth : Nat} (requests : List Request) :
    (newRequested (Kernel.ofDepth rounds (depth + 3)) requests).Gives world fun found after =>
      Reported requests found.2 ∧ after.Registers found.1 ∧ ∃ first entries,
        (after.register found.1).Tells first entries ∧ unnumbered entries = history requests := by
  intro serial
  let start := world.withSerial serial
  obtain ⟨results, houtcome, hreported⟩ := @newRequested_outcome start rounds depth requests
  have hregisters : start.addEquipped.Registers world.hosts.size := World.registers_addEquipped
  let notices := start.notices.push (.installed .parser)
  let register := requests.foldl Register.enter ⟨.empty, .empty, notices, start.serial + 2⟩
  let after := start.addEquipped.withRegister world.hosts.size register
  refine ⟨_, after, after.serial, houtcome, _, rfl, hreported,
    hregisters.withRegister register, start.serial + 2, ?_⟩
  obtain ⟨entries, htells, hhistory⟩ :=
    Register.exists_tells notices (start.serial + 2) requests
  refine ⟨entries, ?_, hhistory⟩
  have hregister : after.register world.hosts.size = register :=
    World.register_withRegister register hregisters.plain.present
  exact hregister ▸ htells

/-! ## What is under a label -/

/-- The value that a record of a world holds under a label. -/
def World.valueUnder (world : World) (ref : RecordRef) (label : String) : Option Value :=
  ((world.record ref).get? (.text label)).map Entry.value

/-- What was last registered under a label. -/
def lastUnder {α : Type} (label : String) (entries : List (String × α)) : Option α :=
  entries.reverse.lookup label

/-- A record that tells a table holds under a label what came last under it. -/
theorem get?_entries {α : Type} {content : String → α → Value} {record : Record}
    {entries : List (String × α)}
    (hentries : List.Forall₂ (IsEntryOf fun label told value => value = content label told)
      record.entries (Table.ofList entries).entries) (label : String) :
    (record.get? (.text label)).map Entry.value = (lastUnder label entries).map (content label) := by
  have hlast : (Table.ofList entries).entries.lookup label = lastUnder label entries :=
    Table.get?_ofList entries label
  rw [← hlast, Table.get?]
  rcases lookup_entries label hentries with ⟨hnone, hnone'⟩ | ⟨entry, told, hsome, hsome', hentry⟩
  · rw [hnone, hnone']
    rfl
  · rw [hsome, hsome']
    exact congrArg some hentry.2.2

/-- Where the last rule under a label was made from a pattern, that pattern is the last one captured
under the label. -/
theorem lastUnder_capturedIn {entries : List (String × Origin)} {label : String}
    {pattern : Pattern} (hlast : lastUnder label entries = some (.captured pattern)) :
    lastUnder label (capturedIn entries) = some pattern := by
  rw [lastUnder] at hlast ⊢
  rw [capturedIn, ← List.filterMap_reverse]
  generalize entries.reverse = latest at hlast
  induction latest with
  | nil => cases hlast
  | cons entry rest ih =>
      obtain ⟨other, origin⟩ := entry
      rw [List.lookup_cons] at hlast
      by_cases heq : label = other
      · subst heq
        rw [beq_self_eq_true] at hlast
        cases hlast
        simp [Origin.pattern?]
      · rw [beq_false_of_ne heq] at hlast
        cases hpattern : origin.pattern? with
        | none => simpa [hpattern] using ih hlast
        | some captured => simpa [hpattern, List.lookup_cons, beq_false_of_ne heq] using ih hlast

theorem lastUnder_unnumbered (label : String) (entries : List (String × Nat × Origin)) :
    lastUnder label (unnumbered entries) = (lastUnder label entries).map Prod.snd := by
  rw [lastUnder, lastUnder, unnumbered, ← List.map_reverse]
  induction entries.reverse with
  | nil => rfl
  | cons entry rest ih =>
      rw [List.map_cons, List.lookup_cons, List.lookup_cons, ih]
      cases label == entry.1 <;> rfl

/-- The rules hold under a label what was last registered under it. -/
theorem Register.Tells.rule_under {register : Register} {first : Nat}
    {entries : List (String × Nat × Origin)} (htells : register.Tells first entries)
    (label : String) :
    match lastUnder label (unnumbered entries) with
    | none => (register.rules.get? (.text label)).map Entry.value = none
    | some origin => ∃ serial,
      (register.rules.get? (.text label)).map Entry.value = some (origin.value serial label) := by
  rw [lastUnder_unnumbered, get?_entries htells.rules label]
  cases lastUnder label entries with
  | none => rfl
  | some numbered => exact ⟨numbered.1, rfl⟩

end Rulebook
