import Mathlib.Data.List.Forall2
import Rulebook.Proofs.Stack

/-!
# Tables of rules

What the rules of a parser are, seen as a table of labels with patterns and scripts. The record of
a plain parser is read and written through this view: a label finds its rule, and setting a rule
changes the one entry under its label.
-/

namespace Rulebook

open Run

/-- A rule under a label: a captured pattern or a script. -/
inductive Rule
  | captured (pattern : Pattern)
  | script (body : List Stmt)

/-- A value is a rule that was registered under a label. -/
def Rule.Describes (label : String) : Rule → Value → Prop
  | .captured pattern, value =>
    ∃ serial name source, value = .patternRule serial name (.text label) source ∧
      pattern.binary = false ∧ source.Compiles pattern
  | .script body, value => ∃ serial name, value = .callback serial name body

/-- An entry of a record is the one under a label, with a value as it is described for it. -/
def IsEntryOf {α : Type} (describes : String → α → Value → Prop) (entry : Key × Entry)
    (named : String × α) : Prop :=
  entry.1 = .text named.1 ∧ entry.2.name = .text named.1 ∧
    describes named.1 named.2 entry.2.value

/-- An entry of a record holds a rule under its label. -/
def Rule.IsEntry : Key × Entry → String × Rule → Prop := IsEntryOf Rule.Describes

/-- The rules of a parser are those of a table, in its order. -/
structure World.Ruled (world : World) (id : HostId) (table : Table String Rule) : Prop where
  rules : (world.host id).rules = some (.record (.rules id))
  entries : List.Forall₂ Rule.IsEntry (world.host id).ownRules.entries table.entries
  nodup : table.keys.Nodup

/-- The world with a rule set under a label. -/
def World.setRule (world : World) (id : HostId) (label : String) (rule : Value) : World :=
  world.changeRecord (.rules id) fun record => record.write (.text label) (.text label) rule

/-! ## Tables -/

section Table

variable {α : Type} {describes : String → α → Value → Prop} {entries : List (Key × Entry)}
  {named : List (String × α)} {label : String} {content : α} {value : Value}

theorem lookup_entries (label : String)
    (hentries : List.Forall₂ (IsEntryOf describes) entries named) :
    (entries.lookup (.text label) = none ∧ named.lookup label = none) ∨
      ∃ entry content, entries.lookup (.text label) = some entry ∧
        named.lookup label = some content ∧
        IsEntryOf describes (.text label, entry) (label, content) := by
  induction hentries with
  | nil => exact Or.inl ⟨rfl, rfl⟩
  | @cons head first entries named hentry _ ih =>
      obtain ⟨key, entry⟩ := head
      obtain ⟨other, content⟩ := first
      obtain ⟨rfl, hname, hdescribes⟩ := hentry
      simp only [List.lookup_cons]
      by_cases heq : label = other
      · subst heq
        simp only [beq_self_eq_true]
        exact Or.inr ⟨entry, content, rfl, rfl, rfl, hname, hdescribes⟩
      · have hkey : (Key.text label == Key.text other) = false := by simpa using heq
        rw [hkey, beq_false_of_ne heq]
        exact ih

theorem insertEntry_entries (hentries : List.Forall₂ (IsEntryOf describes) entries named)
    (hdescribes : describes label content value) :
    List.Forall₂ (IsEntryOf describes)
      (Table.insertEntry (.text label) ⟨.text label, value⟩ entries)
      (Table.insertEntry label content named) := by
  induction hentries with
  | nil => exact .cons ⟨rfl, rfl, hdescribes⟩ .nil
  | @cons head first entries named hentry htail ih =>
      obtain ⟨key, entry⟩ := head
      obtain ⟨other, old⟩ := first
      obtain ⟨rfl, hold⟩ := hentry
      simp only [Table.insertEntry, Key.text.injEq]
      split
      next heq => exact .cons ⟨rfl, rfl, hdescribes⟩ htail
      next => exact .cons ⟨rfl, hold⟩ ih

/-- Writing under a label changes the entry of the label alone. -/
theorem write_entries {record : Record} {table : Table String α}
    (hentries : List.Forall₂ (IsEntryOf describes) record.entries table.entries)
    (hdescribes : describes label content value) :
    List.Forall₂ (IsEntryOf describes) (record.write (.text label) (.text label) value).entries
      (table.insert label content).entries := by
  have hname : ((record.get? (.text label)).map Entry.name).getD (.text label) = .text label := by
    rcases lookup_entries label hentries with ⟨hnone, _⟩ | ⟨entry, _, hsome, _, hentry⟩
    · rw [Table.get?, hnone]
      rfl
    · rw [Table.get?, hsome]
      exact hentry.2.1
  simp only [Record.write, hname]
  exact insertEntry_entries hentries hdescribes

theorem mem_of_lookup {κ α : Type} [DecidableEq κ] {entries : List (κ × α)} {key : κ} {content : α}
    (hlookup : entries.lookup key = some content) : (key, content) ∈ entries := by
  obtain ⟨before, after, hsplit, _⟩ := List.lookup_eq_some_iff.mp hlookup
  rw [hsplit]
  exact List.mem_append_right _ List.mem_cons_self

theorem Table.mem_of_get? {κ α : Type} [DecidableEq κ] {table : Table κ α} {key : κ} {content : α}
    (hget : table.get? key = some content) : (key, content) ∈ table.entries :=
  mem_of_lookup hget

/-- There is something under the keys that came in, and nowhere else. -/
theorem lookup_isSome {κ α : Type} [DecidableEq κ] {entries : List (κ × α)} {key : κ} :
    (entries.lookup key).isSome ↔ key ∈ entries.map Prod.fst := by
  rw [List.lookup_isSome_iff, List.mem_map]
  exact exists_congr fun entry => and_congr_right fun _ => beq_iff_eq.trans eq_comm

theorem lookup_absent {κ α : Type} [DecidableEq κ] {entries : List (κ × α)} {key : κ}
    (habsent : key ∉ entries.map Prod.fst) : entries.lookup key = none := by
  rwa [← lookup_isSome, Option.not_isSome_iff_eq_none] at habsent

theorem Table.has_of_mem {κ α : Type} [DecidableEq κ] {table : Table κ α} {entry : κ × α}
    (hentry : entry ∈ table.entries) : table.has entry.1 = true :=
  lookup_isSome.mpr (List.mem_map_of_mem hentry)

theorem Table.nodup_insert {κ α : Type} [DecidableEq κ] {key : κ} (table : Table κ α) (entry : α)
    (hnodup : table.keys.Nodup) : (table.insert key entry).keys.Nodup := by
  rw [Table.keys_insert]
  split
  next => exact hnodup
  next hnew =>
    rw [List.nodup_append]
    refine ⟨hnodup, by simp, ?_⟩
    intro one hone other hother heq
    rw [List.mem_singleton] at hother
    exact hnew (hother ▸ heq ▸ hone)

end Table

variable {world : World} {id : HostId} {table : Table String Rule} {rounds depth : Nat}
  {label : String} {rule : Rule}

namespace World

theorem Ruled.congr {other : World} (hruled : world.Ruled id table)
    (hrules : (other.host id).rules = (world.host id).rules)
    (hentries : (other.host id).ownRules = (world.host id).ownRules) : other.Ruled id table where
  rules := hrules.trans hruled.rules
  entries := by rw [hentries]; exact hruled.entries
  nodup := hruled.nodup

theorem host_setRule (label : String) (value : Value) (hpresent : id < world.hosts.size) :
    (world.setRule id label value).host id =
      { world.host id with
        ownRules := (world.host id).ownRules.write (.text label) (.text label) value } := by
  rw [setRule, changeRecord, host_changeHost, if_pos ⟨rfl, hpresent⟩]

theorem Ruled.setRule (hruled : world.Ruled id table) (hpresent : id < world.hosts.size)
    {value : Value} (hdescribes : rule.Describes label value) :
    (world.setRule id label value).Ruled id (table.insert label rule) := by
  have hhost := host_setRule label value hpresent
  refine ⟨by rw [hhost]; exact hruled.rules, ?_, Table.nodup_insert table rule hruled.nodup⟩
  rw [hhost]
  exact write_entries hruled.entries hdescribes

end World

/-! ## Reading and setting rules -/

/-- A parser gives the rule that its record of rules holds under a key. -/
theorem getRule_outcome {ref : RecordRef} {label : Value} {key : Key} {entry : Entry}
    (hrules : (world.host id).rules = some (.record ref)) (hkey : label.key? = some key)
    (hentry : (world.record ref).get? key = some entry) :
    (Parser.getRule id label).outcome world = (.ok entry.value, world) := by
  have hpart : (hostPart id "rules").outcome world = (.ok (.record ref), world) :=
    hostPart_look "rules" hrules world.serial
  have hitem : (getItem (.record ref) label).outcome world = (.ok entry.value, world) := by
    rw [getItem, keyOf, hkey]
    refine (outcome_bind_ok (outcome_pure key world)).trans ?_
    rw [outcome_bind_ok (outcome_record _ _), hentry]
    rfl
  have hobserved := outcome_observe (getItem (.record ref) label) world
  rw [hitem] at hobserved
  rw [Parser.getRule, outcome_bind_ok hpart]
  exact outcome_bind_ok hobserved

theorem get_gives (hplain : world.Plain id) (hruled : world.Ruled id table)
    (hrule : table.get? label = some rule) :
    ((Kernel.ofDepth rounds (depth + 1)).sendHost id "get" [.text label]).Gives world
      fun value after => rule.Describes label value ∧ after = world := by
  rcases lookup_entries label hruled.entries with
    ⟨_, hnone⟩ | ⟨entry, other, hsome, hother, hentry⟩
  · rw [Table.get?, hnone] at hrule
    cases hrule
  · rw [Table.get?, hother] at hrule
    cases hrule
    refine sendHost_ends hplain .get [_] rfl fun serial => ?_
    have hget : (Parser.getRule id (.text label)).outcome (world.withSerial serial) =
        (.ok entry.value, world.withSerial serial) := getRule_outcome hruled.rules rfl hsome
    exact ⟨_, _, serial, hget, _, rfl, hentry.2.2, rfl⟩

theorem get_fails (hplain : world.Plain id) (hruled : world.Ruled id table)
    (hrule : table.get? label = none) :
    ((Kernel.ofDepth rounds (depth + 1)).sendHost id "get" [.text label]).Fails world
      fun fault after => fault = .undefinedRule label ∧ after = world := by
  rcases lookup_entries label hruled.entries with
    ⟨hnone, _⟩ | ⟨_, _, _, hsome, _⟩
  · refine sendHost_ends hplain .get [_] rfl ?_
    refine Ends.look _ (hostPart_look "rules" hruled.rules) ?_
    have hitem : ∀ serial, (getItem (.record (.rules id)) (.text label)).observe.outcome
        (world.withSerial serial) =
          (.ok (.error (.missingKey label)), world.withSerial serial) := by
      intro serial
      have hfound : ((world.withSerial serial).record (.rules id)).get? (.text label) = none :=
        hnone
      have hmissing : (getItem (.record (.rules id)) (.text label)).outcome
          (world.withSerial serial) =
            (.error (.missingKey label), world.withSerial serial) := by
        rw [getItem, keyOf]
        refine (outcome_bind_ok (outcome_pure (Key.text label) _)).trans ?_
        rw [outcome_bind_ok (outcome_record _ _), hfound]
        rfl
      rw [outcome_observe, hmissing]
    refine Ends.look _ hitem ?_
    exact Ends.look label (fun _ => rfl) (Fails.fail ⟨rfl, rfl⟩)
  · cases hrule.symm.trans hsome

theorem set_gives (hplain : world.Plain id) (hruled : world.Ruled id table) (label : String)
    (value : Value) :
    ((Kernel.ofDepth rounds (depth + 1)).sendHost id "set" [.text label, value]).Gives world
      fun result after => result = .host id ∧ after = world.setRule id label value := by
  refine sendHost_ends hplain .set [_, _] rfl ?_
  refine Ends.change () (world.setRule id label value) (fun serial => ?_) (Gives.pure ⟨rfl, rfl⟩)
  exact outcome_bind_ok (hostPart_look "rules" hruled.rules serial)

theorem valuesIn_rules_look (hruled : world.Ruled id table) (serial : Nat) :
    (valuesIn (.record (.rules id))).outcome (world.withSerial serial) =
      (.ok (table.keys.map .text), world.withSerial serial) := by
  have hnames : ∀ {entries : List (Key × Entry)} {rules : List (String × Rule)},
      List.Forall₂ Rule.IsEntry entries rules →
      (entries.map Prod.snd).map Entry.name = (rules.map Prod.fst).map Value.text := by
    intro entries rules hentries
    induction hentries with
    | nil => rfl
    | cons hentry _ ih => simp only [List.map_cons, ih, hentry.2.1]
  exact congrArg (fun values => (Except.ok values, world.withSerial serial))
    (hnames hruled.entries)

end Rulebook
