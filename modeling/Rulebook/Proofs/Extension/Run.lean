import Rulebook.Kernel
import Rulebook.Proofs.Law
import Rulebook.Proofs.Extension.World

/-!
# Runs with more rules in a table

Two runs go side by side, one in a world and the other in the world with more rules in the table of
a parser. As long as the first is not cut off the second ends in the same way, and the worlds that
they leave still differ in nothing but the rules that were added. Runs that are put together from
such parts go along with each other, and so do the primitives, given values that ignore the tables.
-/

namespace Rulebook.Extension

open Run

variable {ext : Extension}

/-- Two runs ended in the same way, if with a result with one of which a condition holds, and in
worlds that differ in the rules that were added. -/
structure GoesAlong {α : Type} (ext : Extension) (holds : α → Prop)
    (ending ending' : Except Fault α × World) : Prop where
  result : ending'.1 = ending.1
  beside : ext.Beside ending.2 ending'.2
  holds : ∀ result, ending.1 = .ok result → holds result

/-- With more rules the second of two runs goes as the first does without them, unless the first is
cut off. -/
def Follows {α : Type} (ext : Extension) (holds : α → Prop) (run run' : Run α) : Prop :=
  ∀ world world', ext.Beside world world' →
    wasCutOff (run.outcome world).1 = true ∨
      ext.GoesAlong holds (run.outcome world) (run'.outcome world')

/-- A run goes the same way with more rules. -/
abbrev Keeps {α : Type} (ext : Extension) (holds : α → Prop) (run : Run α) : Prop :=
  ext.Follows holds run run

/-! ## One part after another -/

section Rules

variable {α β : Type} {holds : α → Prop} {after : β → Prop} {run run' : Run α}
  {next next' : α → Run β}

theorem wasCutOff_iff {result : Except Fault α} :
    wasCutOff result = true ↔ result = .error .outOfFuel := by
  unfold wasCutOff
  split
  next => exact ⟨fun _ => rfl, fun _ => rfl⟩
  next hother => exact ⟨nofun, fun heq => absurd heq hother⟩

/-- A run whose first part is cut off is cut off. -/
theorem wasCutOff_bind {world : World} (hrun : wasCutOff (run.outcome world).1 = true) :
    wasCutOff ((run >>= next).outcome world).1 = true := by
  rw [outcome_bind]
  rcases hone : run.outcome world with ⟨result, between⟩
  rw [hone, wasCutOff_iff] at hrun
  subst hrun
  rfl

namespace Follows

theorem pure {result : α} (hresult : holds result) :
    ext.Keeps holds (Pure.pure result) := by
  intro world world' hbeside
  refine .inr ⟨rfl, hbeside, ?_⟩
  rintro _ ⟨⟩
  exact hresult

theorem fail (fault : Fault) : ext.Keeps holds (Run.fail fault : Run α) :=
  fun _ _ hbeside => .inr ⟨rfl, hbeside, nofun⟩

/-- A run that was cut off ends in no way that has to be matched. -/
theorem outOfFuel (run' : Run α) : ext.Follows holds (Run.fail .outOfFuel) run' :=
  fun _ _ _ => .inl rfl

theorem failBind (fault : Fault) : ext.Follows after (Run.fail fault >>= next)
    (Run.fail fault >>= next') :=
  fun _ _ hbeside => .inr ⟨rfl, hbeside, nofun⟩

theorem bind (hrun : ext.Follows holds run run')
    (hnext : ∀ result, holds result → ext.Follows after (next result) (next' result)) :
    ext.Follows after (run >>= next) (run' >>= next') := by
  intro world world' hbeside
  rw [outcome_bind, outcome_bind]
  rcases hone : run.outcome world with ⟨fault | result, between⟩
  · rcases hrun world world' hbeside with hcut | halong
    · -- the cut goes through to the end, so nothing is asked of the other run
      rw [hone] at hcut
      cases wasCutOff_iff.mp hcut
      exact .inl rfl
    · rcases htwo : run'.outcome world' with ⟨result', between'⟩
      rw [hone, htwo] at halong
      obtain rfl := halong.result
      exact .inr ⟨rfl, halong.beside, nofun⟩
  · rcases hrun world world' hbeside with hcut | halong
    · rw [hone] at hcut
      cases hcut
    · rcases htwo : run'.outcome world' with ⟨result', between'⟩
      rw [hone, htwo] at halong
      obtain rfl := halong.result
      exact hnext result (halong.holds result rfl) between between' halong.beside

/-- Runs that ask the world something go along if they do so for every answer. -/
theorem get {next next' : World → Run β}
    (hnext : ∀ world patterns notices, ext.Fits world →
      ext.Follows after (next world) (next' (ext.widen patterns notices world))) :
    ext.Follows after (MonadState.get >>= next) (MonadState.get >>= next') := by
  intro world world' hbeside
  obtain ⟨patterns, notices, rfl⟩ := hbeside.widened
  exact hnext world patterns notices hbeside.fits world _ hbeside

/-- A change of the world is one of the world with more rules. -/
theorem modify {change : World → World}
    (hchange : ∀ {world}, ext.Fits world → ext.Fits (change world) ∧ ∀ patterns notices,
      ∃ patterns' notices', change (ext.widen patterns notices world) =
        ext.widen patterns' notices' (change world)) :
    ext.Keeps (fun _ => True)
      (MonadState.modifyGet fun world => ((), change world) : Run Unit) := by
  intro world world' hbeside
  obtain ⟨patterns, notices, rfl⟩ := hbeside.widened
  obtain ⟨hfits, hwidened⟩ := hchange hbeside.fits
  obtain ⟨patterns', notices', heq⟩ := hwidened patterns notices
  exact .inr ⟨rfl, ⟨hfits, patterns', notices', heq⟩, fun _ _ => trivial⟩

/-- Whatever a run does about a fault, it cannot go on after it was cut off. -/
theorem observe {next next' : Except Fault α → Run β} (hrun : ext.Follows holds run run')
    (hcut : ∀ world, wasCutOff ((next (.error .outOfFuel)).outcome world).1 = true)
    (hok : ∀ result, holds result → ext.Follows after (next (.ok result)) (next' (.ok result)))
    (herror : ∀ fault, ext.Follows after (next (.error fault)) (next' (.error fault))) :
    ext.Follows after (Run.observe run >>= next) (Run.observe run' >>= next') := by
  intro world world' hbeside
  rw [outcome_bind, outcome_bind, outcome_observe, outcome_observe]
  rcases hrun world world' hbeside with hfault | halong
  · rw [wasCutOff_iff.mp hfault]
    exact .inl (hcut _)
  · rw [halong.result]
    cases hresult : (run.outcome world).1 with
    | ok result => exact hok result (halong.holds result hresult) _ _ halong.beside
    | error fault => exact herror fault _ _ halong.beside

theorem mono {wider : α → Prop} (hrun : ext.Follows holds run run')
    (hwider : ∀ result, holds result → wider result) : ext.Follows wider run run' := by
  intro world world' hbeside
  rcases hrun world world' hbeside with hcut | halong
  · exact .inl hcut
  · exact .inr ⟨halong.result, halong.beside, fun result hresult =>
      hwider result (halong.holds result hresult)⟩

theorem ite {condition : Prop} [Decidable condition] {yes yes' no no' : Run α}
    (hyes : ext.Follows holds yes yes') (hno : ext.Follows holds no no') :
    ext.Follows holds (if condition then yes else no) (if condition then yes' else no') := by
  split
  next => exact hyes
  next => exact hno

theorem mapM {α : Type} {given : α → Prop} {step : α → Run β} {values : List α}
    (hvalues : ∀ value ∈ values, given value)
    (hstep : ∀ {value}, given value → ext.Keeps after (step value)) :
    ext.Keeps (fun results : List β => ∀ result ∈ results, after result) (values.mapM step) := by
  induction values with
  | nil => exact pure nofun
  | cons value rest ih =>
      obtain ⟨hvalue, hrest⟩ := List.forall_mem_cons.mp hvalues
      rw [List.mapM_cons]
      exact (hstep hvalue).bind fun _ hhead => (ih hrest).bind fun _ htail =>
        pure (List.forall_mem_cons.mpr ⟨hhead, htail⟩)

end Follows

end Rules

/-! ## Primitives -/

namespace Fits

variable {world after : World}

/-- Where no host changes, rules can be added as before. -/
theorem congr (hfits : ext.Fits world) (hhosts : after.hosts = world.hosts)
    (hafter : after.Ignores ext.id) : ext.Fits after where
  ignores := hafter
  present := hhosts ▸ hfits.present
  rules := by rw [World.host, hhosts]; exact hfits.rules

theorem changeHost (hfits : ext.Fits world) (number : HostId) {change : Host → Host}
    (hchange : ∀ {host : Host}, host.Ignores ext.id number →
      (change host).Ignores ext.id number)
    (hrules : number = ext.id → ∀ host, (change host).ownRules = host.ownRules) :
    ext.Fits (world.changeHost number change) where
  ignores := hfits.ignores.changeHost number hchange
  present := by
    rw [World.changeHost, Array.size_modify]
    exact hfits.present
  rules := by
    rw [World.host_changeHost]
    split
    next hsame => rw [hrules hsame.1, hfits.rules]
    next => exact hfits.rules

theorem addHost (hfits : ext.Fits world) {host : Host}
    (hhost : host.Ignores ext.id world.hosts.size) : ext.Fits (world.addHost host) where
  ignores := hfits.ignores.addHost hhost
  present := by
    rw [World.addHost, Array.size_push]
    exact Nat.lt_succ_of_lt hfits.present
  rules := by
    rw [World.host_addHost, if_neg (Nat.ne_of_lt hfits.present)]
    exact hfits.rules

end Fits

namespace Follows

section Primitives

variable {α β : Type} {after : β → Prop} {value other label val position : Value}

theorem fresh : ext.Keeps (fun _ => True) Run.fresh := by
  refine get fun world patterns notices hfits => ?_
  refine (modify fun {_} hfits => ?_).bind fun _ _ => pure trivial
  exact ⟨hfits.congr rfl { hfits.ignores with }, fun _ _ => ⟨_, _, rfl⟩⟩

theorem notify (notice : Notice) : ext.Keeps (fun _ => True) (Run.notify notice) :=
  modify fun hfits =>
    ⟨hfits.congr rfl { hfits.ignores with }, fun _ _ => ⟨_, _, rfl⟩⟩

theorem cell (node : NodeId) : ext.Keeps (NodeCell.Ignores ext.id) (Run.cell node) := by
  refine get fun world patterns notices hfits => ?_
  exact pure (hfits.ignores.cell node)

/-- What does not look into the tables of a host goes the same way. -/
theorem host (number : HostId) {next next' : Host → Run β}
    (hsame : ∀ host ownRules ownPatterns, next' { host with ownRules, ownPatterns } = next' host)
    (hnext : ∀ host, host.Ignores ext.id number → ext.Follows after (next host) (next' host)) :
    ext.Follows after (Run.host number >>= next) (Run.host number >>= next') := by
  intro world world' hbeside
  obtain ⟨patterns, notices, rfl⟩ := hbeside.widened
  obtain ⟨ownRules, ownPatterns, hhost⟩ :=
    ext.exists_host_widen patterns notices world number
  rw [outcome_bind, outcome_bind, outcome_host, outcome_host, hhost]
  dsimp only
  rw [hsame]
  exact hnext _ (hbeside.fits.ignores.host number) _ _ hbeside

theorem items (ref : ListRef) :
    ext.Keeps (fun items => AllIgnore ext.id items.toList) (Run.items ref) := by
  refine get fun world patterns notices hfits => ?_
  rw [items_widen]
  exact pure (hfits.ignores.items ref)

theorem record {ref : RecordRef} (hrecord : (Value.record ref).Ignores ext.id) :
    ext.Keeps (Record.Ignores ext.id) (Run.record ref) := by
  refine get fun world patterns notices hfits => ?_
  rw [record_widen patterns notices hrecord.1 hrecord.2]
  exact pure (hfits.ignores.record hrecord.2)

theorem newNode (hlabel : label.Ignores ext.id) (hval : val.Ignores ext.id)
    (hposition : position.Ignores ext.id) :
    ext.Keeps (fun _ => True) (Run.newNode label val position) := by
  refine get fun world patterns notices hfits => ?_
  refine (modify fun {_} hfits => ?_).bind fun _ _ => pure trivial
  refine ⟨hfits.congr rfl (hfits.ignores.addCell ?_), fun _ _ => ⟨_, _, rfl⟩⟩
  exact .fresh _ hlabel hval hposition

theorem changeCell (node : NodeId) {change : NodeCell → NodeCell}
    (hchange : ∀ {cell : NodeCell}, cell.Ignores ext.id → (change cell).Ignores ext.id) :
    ext.Keeps (fun _ => True) (Run.changeCell node change) :=
  modify fun hfits =>
    ⟨hfits.congr rfl (hfits.ignores.changeCell node hchange), fun _ _ => ⟨_, _, rfl⟩⟩

theorem newHost {host : HostId → Host}
    (hhost : ∀ number, number ≠ ext.id → (host number).Ignores ext.id number) :
    ext.Keeps (fun number => number ≠ ext.id) (Run.newHost host) := by
  intro world world' hbeside
  obtain ⟨patterns, notices, rfl⟩ := hbeside.widened
  have hnumber : world.hosts.size ≠ ext.id := Nat.ne_of_gt hbeside.fits.present
  rw [outcome_newHost, outcome_newHost, size_widen]
  refine .inr ⟨rfl, ⟨?_, patterns, notices, ?_⟩, ?_⟩
  · exact hbeside.fits.addHost (hhost _ hnumber)
  · exact (widen_addHost patterns notices hbeside.fits.present _).symm
  · rintro _ ⟨⟩
    exact hnumber

/-- A change of the parser itself does not look into its tables. -/
theorem changeHost (number : HostId) {change : Host → Host}
    (hignores : ∀ {host : Host}, host.Ignores ext.id number →
      (change host).Ignores ext.id number)
    (hrules : number = ext.id → ∀ host, (change host).ownRules = host.ownRules)
    (hchange : number = ext.id → ∀ host ownRules ownPatterns,
      change { host with ownRules, ownPatterns } = { change host with ownRules, ownPatterns }) :
    ext.Keeps (fun _ => True) (Run.changeHost number change) := by
  refine modify fun hfits => ⟨hfits.changeHost number hignores hrules, ?_⟩
  intro patterns notices
  exact ⟨patterns, notices, (widen_changeHost patterns notices number hchange).symm⟩

theorem newList {items : Array Value} (hitems : AllIgnore ext.id items.toList) :
    ext.Keeps (Value.Ignores ext.id) (Run.newList items) := by
  refine get fun world patterns notices hfits => ?_
  refine (modify fun {_} hfits => ?_).bind fun _ _ => pure trivial
  exact ⟨hfits.congr rfl (hfits.ignores.addList hitems), fun _ _ => ⟨_, _, rfl⟩⟩

theorem newStack {items : Array Value} (hitems : AllIgnore ext.id items.toList) :
    ext.Keeps (Value.Ignores ext.id) (Run.newStack items) := by
  refine get fun world patterns notices hfits => ?_
  refine (modify fun {_} hfits => ?_).bind fun _ _ => pure trivial
  exact ⟨hfits.congr rfl (hfits.ignores.addStack hitems), fun _ _ => ⟨_, _, rfl⟩⟩

theorem newRecord {record : Record} (hrecord : record.Ignores ext.id) :
    ext.Keeps (Value.Ignores ext.id) (Run.newRecord record) := by
  refine get fun world patterns notices hfits => ?_
  refine (modify fun {_} hfits => ?_).bind fun _ _ => pure ⟨by simp, by simp⟩
  exact ⟨hfits.congr rfl (hfits.ignores.addRecord hrecord), fun _ _ => ⟨_, _, rfl⟩⟩

theorem changeItems (ref : ListRef) {change : Array Value → Array Value}
    (hchange : ∀ {items : Array Value}, AllIgnore ext.id items.toList →
      AllIgnore ext.id (change items).toList) :
    ext.Keeps (fun _ => True) (Run.changeItems ref change) := by
  refine modify fun {world} hfits => ⟨hfits.congr ?_ (hfits.ignores.changeItems ref hchange), ?_⟩
  · cases ref <;> rfl
  · intro patterns notices
    refine ⟨patterns, notices, ?_⟩
    cases ref <;> rfl

/-- Every record but the table of rules may be changed; nothing is said of that of patterns. -/
theorem changeRecord {ref : RecordRef} (href : ref ≠ .rules ext.id) {change : Record → Record}
    (hchange : ∀ {record : Record}, record.Ignores ext.id → Record.Ignores ext.id (change record)) :
    ext.Keeps (fun _ => True) (Run.changeRecord ref change) := by
  cases ref with
  | notes | made =>
      refine modify fun hfits => ⟨hfits.congr rfl ?_, fun _ _ => ⟨_, _, rfl⟩⟩
      exact hfits.ignores.changeRecord _ fun _ => hchange
  | options number =>
      refine changeHost number (fun hhost => ?_) (fun _ _ => rfl) fun _ _ _ _ => rfl
      exact { hhost with ownOptions := hchange hhost.ownOptions }
  | rules number =>
      have hother : number ≠ ext.id := fun heq => href (heq ▸ rfl)
      refine changeHost number (fun hhost => ?_) (absurd · hother) (absurd · hother)
      exact { hhost with ownRules := hchange hhost.ownRules }
  | patterns number =>
      have hignores : ∀ {host : Host}, host.Ignores ext.id number → Host.Ignores ext.id number
          { host with ownPatterns := change host.ownPatterns } := fun hhost =>
        { hhost with ownPatterns := fun hother => hchange (hhost.ownPatterns hother) }
      -- the table of patterns of the parser itself is another one in the other world
      by_cases hself : number = ext.id
      · subst hself
        refine modify fun hfits => ⟨hfits.changeHost _ hignores fun _ _ => rfl, ?_⟩
        intro patterns notices
        exact ⟨change patterns, notices, widen_changePatterns patterns notices change⟩
      · exact changeHost number hignores (absurd · hself) (absurd · hself)

/-! ### What is built from them -/

theorem lacks {holds : α → Prop} (value : Value) (name : String) :
    ext.Keeps holds (Run.lacks value name) := by
  refine get fun world patterns notices hfits => ?_
  rw [readClassName_widen]
  exact fail _

theorem spell (hvalue : value.Ignores ext.id) :
    ext.Keeps (fun _ => True) (Run.spell value) := by
  refine get fun world patterns notices hfits => ?_
  rw [spell_widen patterns notices hfits.ignores hvalue]
  exact pure trivial

theorem plainText (hvalue : value.Ignores ext.id) :
    ext.Keeps (fun _ => True) (Run.plainText value) := by
  refine get fun world patterns notices hfits => ?_
  rw [plainText_widen patterns notices hfits.ignores hvalue]
  exact pure trivial

theorem isSet (hvalue : value.Ignores ext.id) :
    ext.Keeps (fun _ => True) (Run.isSet value) := by
  refine get fun world patterns notices hfits => ?_
  rw [isSet_widen patterns notices hvalue]
  exact pure trivial

theorem equal (hvalue : value.Ignores ext.id) (hother : other.Ignores ext.id) :
    ext.Keeps (fun _ => True) (Run.equal value other) := by
  refine get fun world patterns notices hfits => ?_
  rw [equal?_widen patterns notices hfits.ignores hvalue hother]
  split
  next => exact pure trivial
  next => exact fail _

theorem locationOf (cursor : Cursor) : ext.Keeps (Value.Ignores ext.id) (Run.locationOf cursor) :=
  fresh.bind fun _ _ => pure ⟨trivial, trivial, trivial⟩

theorem ignores_writeAll {fields : List (String × Value)}
    (hfields : ∀ field ∈ fields, field.2.Ignores ext.id) {record : Record}
    (hrecord : record.Ignores ext.id) :
    Record.Ignores ext.id (fields.foldl
      (fun record field => record.write (.text field.1) (.text field.1) field.2) record) := by
  induction fields generalizing record with
  | nil => exact hrecord
  | cons field rest ih =>
      obtain ⟨hfield, hrest⟩ := List.forall_mem_cons.mp hfields
      exact ih hrest (hrecord.write _ trivial hfield)

mutual

theorem valueOf : ∀ datum : Datum, ext.Keeps (Value.Ignores ext.id) (Run.valueOf datum)
  | .null | .bool _ | .int _ | .decimal _ | .text _ => pure trivial
  | .list items => (valuesOf items).bind fun _ hvalues => newList hvalues
  | .record fields => (fieldsOf fields).bind fun _ hfields =>
      newRecord (ignores_writeAll hfields .empty)

theorem valuesOf : ∀ items : List Datum, ext.Keeps (AllIgnore ext.id) (Run.valuesOf items)
  | [] => pure .nil
  | item :: rest => (valueOf item).bind fun _ hvalue =>
      (valuesOf rest).bind fun _ hvalues => pure (.cons hvalue hvalues)

theorem fieldsOf : ∀ fields : List (String × Datum),
    ext.Keeps (fun fields => ∀ field ∈ fields, Value.Ignores ext.id field.2) (Run.fieldsOf fields)
  | [] => pure nofun
  | (_, field) :: rest => (valueOf field).bind fun _ hvalue =>
      (fieldsOf rest).bind fun _ hfields => pure (List.forall_mem_cons.mpr ⟨hvalue, hfields⟩)

end

end Primitives

end Follows

end Rulebook.Extension
