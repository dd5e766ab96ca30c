import Rulebook.Proofs.Alike.Apart
import Rulebook.Proofs.Method

/-!
# Registering without looking at the methods

A parser that sets rules by its own `set` registers a rule without asking who has the method
`capture`: it goes the same way where no host has it, and after other notices, and leaves the
methods of all hosts as they are.
-/

namespace Rulebook

open Run

/-! ## Worlds without the method -/

section Table

variable {κ α : Type} [DecidableEq κ] (key : κ)

theorem Table.get?_erase (table : Table κ α) {query : κ} (hquery : query ≠ key) :
    (table.erase key).get? query = table.get? query := by
  obtain ⟨entries⟩ := table
  simp only [get?, erase]
  induction entries with
  | nil => rfl
  | cons head rest ih =>
      obtain ⟨other, entry⟩ := head
      by_cases hother : other = key
      · have hapart : (query == other) = false := beq_false_of_ne (hother ▸ hquery)
        rw [List.filter_cons_of_neg (by simpa using hother), ih, List.lookup_cons, hapart]
      · rw [List.filter_cons_of_pos (by simpa using hother), List.lookup_cons, List.lookup_cons, ih]

/-- What is taken out again need not have been written. -/
theorem Table.erase_insert (table : Table κ α) (entry : α) :
    (table.insert key entry).erase key = table.erase key := by
  obtain ⟨entries⟩ := table
  simp only [insert, erase, mk.injEq]
  induction entries with
  | nil => exact List.filter_cons_of_neg (by simp)
  | cons head rest ih =>
      rw [insertEntry]
      split
      next hsame =>
        rw [List.filter_cons_of_neg (by simp), List.filter_cons_of_neg (by simpa using hsame)]
      next hother =>
        rw [List.filter_cons_of_pos (by simpa using hother),
          List.filter_cons_of_pos (by simpa using hother), ih]

end Table

/-- A host without the method `capture`. -/
def Host.unequipped (host : Host) : Host := { host with members := host.members.erase "capture" }

theorem Host.attribute?_unequipped (host : Host) {name : String} (hname : name ≠ "capture") :
    host.unequipped.attribute? name = host.attribute? name := by
  unfold attribute?
  split
  all_goals first | rfl | exact Table.get?_erase _ _ hname

namespace World

/-- The world where no host has the method `capture`, and with other notices. -/
def unequipped (world : World) (notices : Array Notice) : World :=
  { world with hosts := world.hosts.map Host.unequipped, notices }

variable (world : World) (notices : Array Notice)

theorem host_unequipped (id : HostId) :
    (world.unequipped notices).host id = (world.host id).unequipped := by
  simp only [host, unequipped, Array.getD_eq_getD_getElem?, Array.getElem?_map]
  cases world.hosts[id]? <;> rfl

@[simp] theorem items_unequipped (ref : ListRef) :
    (world.unequipped notices).items ref = world.items ref := by
  cases ref <;> rfl

@[simp] theorem record_unequipped (ref : RecordRef) :
    (world.unequipped notices).record ref = world.record ref := by
  cases ref with
  | notes | made => rfl
  | options | rules | patterns => simp only [record, host_unequipped, Host.unequipped]

theorem changeItems_unequipped (ref : ListRef) (change : Array Value → Array Value) :
    (world.unequipped notices).changeItems ref change =
      (world.changeItems ref change).unequipped notices := by
  cases ref <;> rfl

theorem changeHost_unequipped (id : HostId) {change : Host → Host}
    (hchange : ∀ host, change host.unequipped = (change host).unequipped) :
    (world.unequipped notices).changeHost id change =
      (world.changeHost id change).unequipped notices := by
  have hhosts : (world.hosts.map Host.unequipped).modify id change =
      (world.hosts.modify id change).map Host.unequipped := by
    apply Array.ext (by simp)
    intro place _ _
    simp only [Array.getElem_modify, Array.getElem_map]
    split
    next => exact hchange _
    next => rfl
  simp only [changeHost, unequipped, hhosts]

theorem changeRecord_unequipped (ref : RecordRef) (change : Record → Record) :
    (world.unequipped notices).changeRecord ref change =
      (world.changeRecord ref change).unequipped notices := by
  cases ref with
  | notes | made => rfl
  | options | rules | patterns => exact changeHost_unequipped _ _ _ fun _ => rfl

@[simp] theorem isSet_unequipped (value : Value) :
    (world.unequipped notices).isSet value = world.isSet value := by
  cases value <;> simp only [isSet, items_unequipped, record_unequipped]

@[simp] theorem className_unequipped (value : Value) :
    (world.unequipped notices).className value = world.className value := by
  cases value with
  | host id => simp only [className, host_unequipped, Host.unequipped]
  | method _ receiver _ => cases receiver <;> rfl
  | _ => rfl

theorem spellWithin_unequipped (fuel : Nat) (path : List Value) (value : Value) :
    (world.unequipped notices).spellWithin fuel path value = world.spellWithin fuel path value := by
  induction fuel generalizing path value with
  | zero => rfl
  | succ fuel ih =>
      have hinner (path : List Value) :
          (world.unequipped notices).spellWithin fuel path = world.spellWithin fuel path :=
        funext (ih path)
      cases value with
      | host id => simp only [spellWithin_host, host_unequipped, Host.unequipped]
      | list ref => simp only [spellWithin_items, hinner, items_unequipped]
      | record ref => simp only [spellWithin_record, hinner, record_unequipped]
      | location _ _ _ _ | span _ _ _ => simp only [spellWithin_location, spellWithin_span, hinner]
      | node id =>
          have hcell : (world.unequipped notices).cell id = world.cell id := rfl
          simp only [spellWithin_node, hinner, hcell]
      | kind kind => cases kind <;> rfl
      | _ => rfl

@[simp] theorem spell_unequipped (value : Value) :
    (world.unequipped notices).spell value = world.spell value := by
  have hextent : (world.unequipped notices).extent = world.extent := by
    simp only [extent, unequipped, Array.size_map]
  rw [spell, spell, hextent, spellWithin_unequipped]

theorem plainText_unequipped (value : Value) :
    (world.unequipped notices).plainText value = world.plainText value := by
  unfold plainText
  split
  all_goals first | rfl | exact world.spell_unequipped notices _

end World

/-! ## Runs that do not look at the method -/

/-- The methods of a host are what they were. -/
structure Host.SameMethods (host after : Host) : Prop where
  hostClass : after.hostClass = host.hostClass
  nested : after.nested = host.nested
  members : after.members = host.members

/-- A parser whose `set` is that of its class. -/
structure World.SetsItself (world : World) (parser : HostId) : Prop where
  isParser : (world.host parser).hostClass.isA .parser = true
  free : (world.host parser).members.get? "set" = none

namespace World.SetsItself

variable {world after : World} {parser : HostId}

theorem congr (hsets : world.SetsItself parser)
    (hsame : (world.host parser).SameMethods (after.host parser)) : after.SetsItself parser where
  isParser := hsame.hostClass ▸ hsets.isParser
  free := hsame.members ▸ hsets.free

theorem unequipped (hsets : world.SetsItself parser) (notices : Array Notice) :
    (world.unequipped notices).SetsItself parser where
  isParser := by
    rw [World.host_unequipped]
    exact hsets.isParser
  free := by
    rw [World.host_unequipped]
    exact (Table.get?_erase _ _ (by decide)).trans hsets.free

theorem method? (hsets : world.SetsItself parser) :
    (world.host parser).hostClass.method? "set" = some (.parser .set) := by
  have hclass := hsets.isParser
  cases hhost : (world.host parser).hostClass <;> rw [hhost] at hclass <;>
    first | rfl | cases hclass

end World.SetsItself

/-- Given a parser with its own `set`, a run goes the same way where no host has the method
`capture` and after any other notices, and leaves the methods of hosts as they are. -/
def Run.Disregards {α : Type} (parser : HostId) (run : Run α) : Prop :=
  ∀ world : World, world.SetsItself parser →
    (∀ id, (world.host id).SameMethods ((run.outcome world).2.host id)) ∧
    ∃ added, (run.outcome world).2.notices = world.notices ++ added ∧
      ∀ notices, run.outcome (world.unequipped notices) =
        ((run.outcome world).1, (run.outcome world).2.unequipped (notices ++ added))

namespace Run.Disregards

variable {α β : Type} {parser : HostId} {run run' : Run α} {next : α → Run β}

theorem quiet (result : Except Fault α) (hrun : ∀ world, run.outcome world = (result, world)) :
    run.Disregards parser := by
  intro world _
  rw [hrun]
  exact ⟨fun _ => ⟨rfl, rfl, rfl⟩, #[], Array.append_empty.symm,
    fun notices => by rw [hrun, Array.append_empty]⟩

theorem pure (value : α) : (Pure.pure value : Run α).Disregards parser :=
  quiet (.ok value) fun _ => rfl

theorem fail (fault : Fault) : (Run.fail fault : Run α).Disregards parser :=
  quiet (.error fault) fun _ => rfl

theorem bind (hrun : run.Disregards parser) (hnext : ∀ value, (next value).Disregards parser) :
    (run >>= next).Disregards parser := by
  intro world hsets
  obtain ⟨hmethods, added, hadded, hblind⟩ := hrun world hsets
  simp only [outcome_bind, hblind]
  rcases houtcome : run.outcome world with ⟨fault | value, middle⟩ <;>
    rw [houtcome] at hmethods hadded
  · exact ⟨hmethods, added, hadded, fun _ => rfl⟩
  · obtain ⟨hmethods', more, hmore, hblind'⟩ := hnext value middle (hsets.congr (hmethods parser))
    refine ⟨fun id => ?_, added ++ more, ?_, fun notices => ?_⟩
    · exact ⟨(hmethods' id).hostClass.trans (hmethods id).hostClass,
        (hmethods' id).nested.trans (hmethods id).nested,
        (hmethods' id).members.trans (hmethods id).members⟩
    · rw [hmore, hadded, Array.append_assoc]
    · rw [← Array.append_assoc]
      exact hblind' _

/-- What a run finds out about the world first is the same where no host has the method. -/
theorem get {next : World → Run β}
    (hsame : ∀ world notices, next (world.unequipped notices) = next world)
    (hnext : ∀ world, (next world).Disregards parser) :
    (MonadState.get >>= next : Run β).Disregards parser := by
  intro world hsets
  simp only [outcome_bind, outcome_get, hsame]
  exact hnext world world hsets

theorem look {seen : World → α}
    (hsame : ∀ world notices, seen (world.unequipped notices) = seen world) :
    (do return seen (← MonadState.get) : Run α).Disregards parser :=
  get (fun world notices => by rw [hsame]) fun _ => pure _

theorem congr (hrun : run.Disregards parser)
    (hsame : ∀ world, world.SetsItself parser → run'.outcome world = run.outcome world) :
    run'.Disregards parser := by
  intro world hsets
  rw [hsame world hsets]
  obtain ⟨hmethods, added, hadded, hblind⟩ := hrun world hsets
  exact ⟨hmethods, added, hadded, fun notices => by rw [hsame _ (hsets.unequipped notices), hblind]⟩

/-- Nothing that is asked of a host but for the method tells whether it has it. -/
theorem host {next : Host → Run β} (id : HostId)
    (hsame : ∀ host : Host, next host.unequipped = next host)
    (hnext : ∀ host, (next host).Disregards parser) :
    (Run.host id >>= next).Disregards parser := by
  have hget : (MonadState.get >>= fun world : World => next (world.host id)).Disregards parser :=
    get (fun world notices => by rw [World.host_unequipped, hsame]) fun world => hnext _
  exact hget.congr fun _ _ => rfl

theorem ite {condition : Prop} [Decidable condition] {yes no : Run α}
    (hyes : yes.Disregards parser) (hno : no.Disregards parser) :
    (if condition then yes else no).Disregards parser := by
  split
  next => exact hyes
  next => exact hno

theorem mapM {step : α → Run β} (hstep : ∀ value, (step value).Disregards parser)
    (values : List α) : (values.mapM step).Disregards parser := by
  induction values with
  | nil => exact pure []
  | cons value rest ih =>
      rw [List.mapM_cons]
      exact bind (hstep value) fun _ => bind ih fun _ => pure _

/-- A change of the world that leaves hosts and notices alone, or keeps to their tables. -/
theorem modify {change : World → World}
    (hmethods : ∀ world : World, ∀ id, (world.host id).SameMethods ((change world).host id))
    (hnotices : ∀ world, (change world).notices = world.notices)
    (hblind : ∀ world notices, change (world.unequipped notices) =
      (change world).unequipped notices) :
    (modify change : Run PUnit).Disregards parser := by
  intro world _
  refine ⟨hmethods world, #[], ?_, fun notices => ?_⟩
  · exact (hnotices world).trans Array.append_empty.symm
  · rw [outcome_modify, outcome_modify, hblind, Array.append_empty]

end Run.Disregards

section Parts

variable {parser : HostId}

namespace Run

theorem disregards_isSet (value : Value) : (isSet value).Disregards parser :=
  .look fun world notices => world.isSet_unequipped notices value

theorem disregards_spell (value : Value) : (spell value).Disregards parser :=
  .look fun world notices => world.spell_unequipped notices value

theorem disregards_items (ref : ListRef) : (items ref).Disregards parser :=
  .look fun world notices => world.items_unequipped notices ref

theorem disregards_record (ref : RecordRef) : (record ref).Disregards parser :=
  .look fun world notices => world.record_unequipped notices ref

theorem disregards_fresh : fresh.Disregards parser :=
  .get (fun _ _ => rfl) fun _ =>
    .bind (.modify (fun _ _ => ⟨rfl, rfl, rfl⟩) (fun _ => rfl) fun _ _ => rfl) fun _ => .pure _

theorem disregards_notify (notice : Notice) : (notify notice).Disregards parser := by
  intro world _
  refine ⟨fun _ => ⟨rfl, rfl, rfl⟩, #[notice], ?_, fun notices => ?_⟩
  · exact Array.push_eq_append
  · rw [outcome_notify, outcome_notify, ← Array.push_eq_append]
    rfl

theorem disregards_changeItems (ref : ListRef) (change : Array Value → Array Value) :
    (changeItems ref change).Disregards parser := by
  refine .modify (fun world id => ?_) (fun world => ?_) fun world notices =>
    world.changeItems_unequipped notices ref change
  · rw [World.host_changeItems]
    exact ⟨rfl, rfl, rfl⟩
  · cases ref <;> rfl

theorem disregards_changeRecord (ref : RecordRef) (change : Record → Record) :
    (changeRecord ref change).Disregards parser := by
  refine .modify (fun world id => ?_) (fun world => ?_) fun world notices =>
    world.changeRecord_unequipped notices ref change
  · obtain ⟨_, _, _, _, hhost⟩ := world.host_changeRecord ref change id
    rw [hhost]
    exact ⟨rfl, rfl, rfl⟩
  · cases ref <;> rfl

theorem disregards_lacks {α : Type} (id : HostId) (name : String) :
    (lacks (.host id) name : Run α).Disregards parser := by
  refine .get (fun world notices => ?_) fun _ => .fail _
  simp only [World.readClassName, World.fullClassName, World.className_unequipped]

theorem disregards_keyOf (value : Value) : (keyOf value).Disregards parser := by
  unfold keyOf
  split
  next => exact .pure _
  next => exact .fail _

theorem disregards_placeAt (length : Nat) (missing : Fault) (index : Value) :
    (placeAt length missing index).Disregards parser := by
  unfold placeAt
  split
  next => exact .fail _
  next =>
    refine .ite (.fail _) ?_
    split
    next => exact .pure _
    next => exact .fail _

theorem disregards_setItem (value index content : Value) :
    (setItem value index content).Disregards parser := by
  unfold setItem
  split
  next ref =>
    refine .bind (disregards_items ref) fun items => ?_
    exact .bind (disregards_placeAt _ _ _) fun place => disregards_changeItems ref _
  next ref => exact .bind (disregards_keyOf index) fun key => disregards_changeRecord ref _
  next => exact .fail _

theorem disregards_valuesIn (value : Value) : (valuesIn value).Disregards parser := by
  unfold valuesIn
  split
  next ref => exact .bind (disregards_items ref) fun _ => .pure _
  next ref => exact .bind (disregards_record ref) fun _ => .pure _
  next => exact .pure _
  next => exact .pure _
  next => exact .fail _

theorem disregards_flagLetters (flags : Value) : (flagLetters flags).Disregards parser := by
  refine .bind (disregards_valuesIn flags) fun values => .bind (.mapM (fun value => ?_) values)
    fun _ => .pure _
  refine .bind (disregards_keyOf value) fun key => ?_
  split <;> exact .pure _

theorem disregards_compile (dialect : Dialect) (source : String) (binary : Bool) (given : Flags) :
    (compile dialect source binary given).Disregards parser := by
  unfold compile
  split
  next => exact .pure _
  all_goals exact .fail _

theorem disregards_compilePattern (source flags : Value) :
    (compilePattern source flags).Disregards parser := by
  unfold compilePattern
  split
  next => exact .pure _
  next =>
    refine .bind (disregards_flagLetters flags) fun letters => ?_
    split
    next => exact disregards_compile _ _ _ _
    next => exact disregards_compile _ _ _ _
    next => exact .fail _

theorem disregards_hostPart (id : HostId) {name : String} (hname : name ≠ "capture") :
    (hostPart id name).Disregards parser := by
  refine .host id (fun host => by rw [Host.attribute?_unequipped _ hname]) fun host => ?_
  split
  next => exact .pure _
  next => exact disregards_lacks id name

theorem disregards_registry (id : HostId) : (attributeOf (.host id) "regex").Disregards parser := by
  refine .host id (fun host => ?_) fun host => ?_
  · rw [Host.attribute?_unequipped _ (by decide)]
    rfl
  · have hcomputed : isComputed host "regex" = false := rfl
    rw [hcomputed, if_neg Bool.false_ne_true]
    split
    next => exact .pure _
    next => exact .bind disregards_fresh fun _ => .pure _
    next => exact disregards_lacks id _

theorem disregards_setRule (label rule : Value) :
    (Parser.setRule parser label rule).Disregards parser :=
  .bind (disregards_hostPart parser (by decide)) fun rules => disregards_setItem rules label rule

theorem disregards_makePatternRule (label pattern : Value) :
    (makePatternRule label pattern).Disregards parser :=
  .bind (.look fun world notices => world.plainText_unequipped notices label) fun _ =>
    .bind disregards_fresh fun _ => .pure _

/-- A parser that is asked to set a rule uses its own `set`, if it is not nested too deeply. -/
theorem disregards_set (rounds depth : Nat) (label rule : Value) :
    ((Kernel.ofDepth rounds depth).send (.host parser) "set" [label, rule]).Disregards parser := by
  cases depth with
  | zero => exact .fail .tooDeep
  | succ depth =>
      have hset : (do
          let _ ← fresh
          Parser.setRule parser label rule
          return .host parser : Run Value).Disregards parser :=
        .bind disregards_fresh fun _ => .bind (disregards_setRule label rule) fun _ => .pure _
      exact hset.congr fun world hsets =>
        sendFree_run_outcome .set hsets.method? hsets.free rounds depth rfl

section Capture

variable (rounds depth : Nat) (label matcher flags : Value)

theorem disregards_captureCallable (name : String) :
    (captureCallable (Kernel.ofDepth rounds depth) (.host parser) name matcher flags).Disregards
      parser := by
  refine .bind (disregards_isSet flags) fun _ => .ite (.bind (.fail _) fun _ => ?_) ?_
  all_goals exact .bind (disregards_notify _) fun _ => disregards_set rounds depth _ _

theorem disregards_capturePattern (name : String) :
    (capturePattern (Kernel.ofDepth rounds depth) (.host parser) name matcher flags).Disregards
      parser := by
  refine .ite (.get (fun world notices => ?_) fun _ => .bind (.fail _) fun _ => ?_) ?_
  · rw [World.className_unequipped]
  -- what comes behind the first check stands both where it fails and where it does not
  all_goals
    refine .bind (disregards_isSet flags) fun _ => ?_
    split
    next => exact .fail _
    next =>
      refine .bind (disregards_compilePattern matcher flags) fun pattern => ?_
      refine .bind (disregards_registry parser) fun registry => ?_
      refine .bind (disregards_setItem _ _ _) fun _ => .bind (disregards_notify _) fun _ => ?_
      exact .bind (disregards_makePatternRule _ _) fun rule => disregards_set rounds depth _ rule

/-- Registering a rule on a parser that uses its own `set` does not look at the method. -/
theorem disregards_capture :
    (capture (Kernel.ofDepth rounds depth) (.host parser) label matcher flags).Disregards
      parser := by
  refine .bind (disregards_isSet label) fun given => ?_
  split
  next =>
    exact .ite (disregards_captureCallable rounds depth _ _ _)
      (disregards_capturePattern rounds depth _ _ _)
  next => exact .bind (disregards_spell _) fun _ => .fail _

end Capture

end Run

end Parts

/-! ## Registering -/

/-- Registers a rule on a parser. -/
def registerOn (kernel : Kernel) (parser : HostId) (args : Args) : Run Value :=
  kernel.invoke (.value .captureRule) ⟨.host parser :: args.positional, args.named⟩

/-- Arguments in order stay in front. -/
theorem Args.bind?_front {args : Args} {params : List Param} {values : List Value}
    (hbind : args.bind? params = some values) : ∃ more, values = args.positional ++ more := by
  rw [Args.bind?] at hbind
  split at hbind
  next =>
    obtain ⟨more, _, hvalues⟩ := Option.map_eq_some_iff.mp hbind
    exact ⟨more, hvalues.symm⟩
  next => cases hbind

theorem disregards_registerOn (rounds depth : Nat) (parser : HostId) (args : Args) :
    (registerOn (Kernel.ofDepth rounds depth) parser args).Disregards parser := by
  cases depth with
  | zero => exact .fail .tooDeep
  | succ depth =>
      change (callValue (Kernel.ofDepth rounds depth) .captureRule _).Disregards parser
      rw [callValue, Args.bind]
      cases hbind : Args.bind? ⟨.host parser :: args.positional, args.named⟩ captureParams with
      | none => exact .quiet (.error .wrongType) fun _ => rfl
      | some values =>
          obtain ⟨more, rfl⟩ := Args.bind?_front hbind
          rw [pure_bind]
          split
          next hvalues =>
            obtain rfl := (List.cons.inj hvalues).1
            exact disregards_capture rounds depth _ _ _
          next => exact .fail _

end Rulebook
