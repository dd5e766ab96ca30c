import Rulebook.Proofs.Orderly

/-!
# Parsers that read on

While a parser reads a text, its rules may do whatever keeps parsers in order, except that they do
not make that parser begin again and take no rule away. Then it stays at its text, goes back
nowhere, keeps a node open and has a rule under every name that it had one under: a change can only
take it further on, and rules are only written.
-/

namespace Rulebook

open Run

/-! ## The law -/

/-- The parser is not made to begin again, and no rule is taken away. -/
def readingOn (id : HostId) : Law where
  call callable _ _ :=
    match callable with
    | .method _ (.host other) "reset" => other ≠ id
    | _ => true
  own _ _ _ := true
  action
    | .drop _ _ => false
    | _ => true

/-- Under this law a parser reads on. -/
def onward (id : HostId) : Law := orderly.and (readingOn id)

theorem onward_orderly (id : HostId) : (onward id).Within orderly := Law.and_within_left _ _

theorem onward_reset (id : HostId) {serial : Nat} {args : Args} {world : World} :
    (onward id).call (.method serial (.host id) "reset") args world ≠ true := by
  intro hcall
  have hother := ((Law.and_within_right _ _).call _ _ _ hcall : (readingOn id).call _ _ _ = true)
  simp [readingOn] at hother

theorem onward_drop (id : HostId) (object : String) (label : Datum) :
    (onward id).action (.drop object label) ≠ true := by
  intro haction
  have hdrop := ((Law.and_within_right _ _).action _ haction : (readingOn id).action _ = true)
  simp [readingOn] at hdrop

/-! ## What is kept -/

/-- The names of the entries are those that their keys are made of. -/
def Record.Keyed (record : Record) : Prop :=
  ∀ entry ∈ record.entries, entry.2.name.key? = some entry.1

/-- How many characters of its input a host has consumed. -/
def Host.offset (host : Host) : Nat := (host.cursor.map Cursor.offset).getD 0

/-- A host is no further back than another and has a rule under every key that the other has one
under. -/
structure Host.Follows (host before : Host) : Prop where
  offset : before.offset ≤ host.offset
  rules : ∀ key, before.ownRules.has key = true → host.ownRules.has key = true

/-- A parser is in the middle of a text: everything is in order, it has the rules that it was made
with, and a node is open. -/
structure World.AtWork (world : World) (id : HostId) (text : String) : Prop where
  orderly : world.Orderly
  hostClass : (world.host id).hostClass = .parser
  input : (world.host id).input = some (.text text)
  root : ∃ root, (world.host id).root = some root
  rules : (world.host id).rules = some (.record (.rules id))
  keyed : (world.host id).ownRules.Keyed
  opened : ∃ number, (world.host id).stack = some (.list (.stack number)) ∧
    0 < (world.items (.stack number)).size

/-! ## Records of rules -/

section Records

theorem Table.mem_insertEntry {κ α : Type} [DecidableEq κ] {key : κ} {content : α}
    {entries : List (κ × α)} {entry : κ × α}
    (hentry : entry ∈ Table.insertEntry key content entries) :
    entry = (key, content) ∨ entry ∈ entries := by
  induction entries with
  | nil => exact .inl (List.mem_singleton.mp hentry)
  | cons head rest ih =>
      rw [Table.insertEntry] at hentry
      split at hentry
      next => exact (List.mem_cons.mp hentry).imp_right (List.mem_cons_of_mem _)
      next =>
        rcases List.mem_cons.mp hentry with rfl | hrest
        · exact .inr List.mem_cons_self
        · exact (ih hrest).imp_right (List.mem_cons_of_mem _)

variable {record : Record}

theorem Record.Keyed.write (hkeyed : record.Keyed) {key : Key} {name : Value} (content : Value)
    (hname : name.key? = some key) : (record.write key name content).Keyed := by
  intro entry hentry
  rcases Table.mem_insertEntry hentry with rfl | hold
  · -- an entry that is written over keeps the name that it has
    rcases hget : record.get? key with _ | old
    · simpa only [Option.map_none, Option.getD_none] using hname
    · simpa only [Option.map_some, Option.getD_some] using hkeyed _ (Table.mem_of_get? hget)
  · exact hkeyed entry hold

theorem Record.has_write {key other : Key} (name content : Value)
    (hhas : record.has other = true) : (record.write key name content).has other = true := by
  rw [Table.has, Record.write, Table.get?_insert]
  split
  next => rfl
  next => exact hhas

end Records

namespace Host.Follows

theorem of_same {host before : Host} (hcursor : host.cursor = before.cursor)
    (hrules : host.ownRules = before.ownRules) : host.Follows before where
  offset := Nat.le_of_eq (by rw [Host.offset, Host.offset, hcursor])
  rules := by rw [hrules]; exact fun _ => id

theorem refl (host : Host) : host.Follows host := of_same rfl rfl

theorem trans {host middle before : Host} (hlater : host.Follows middle)
    (hfirst : middle.Follows before) : host.Follows before :=
  ⟨Nat.le_trans hfirst.offset hlater.offset,
    fun key hhas => hlater.rules key (hfirst.rules key hhas)⟩

end Host.Follows

/-! ## What a move keeps -/

section Moves

variable {inv : World → Prop} {world after : World} {id : HostId} {text : String}

/-- Where there is no host there is no parser at work. -/
theorem World.AtWork.present (hwork : world.AtWork id text) : id ≠ world.hosts.size := by
  rintro rfl
  have hinput := hwork.input
  rw [World.host_size] at hinput
  cases hinput

theorem Law.HostChange.follows {host : Host} (hchange : (onward id).HostChange world id host)
    (hpresent : id ≠ world.hosts.size) (hkeyed : (world.host id).ownRules.Keyed) :
    host.Follows (world.host id) ∧ host.ownRules.Keyed := by
  cases hchange with
  | same | setNested => exact ⟨.of_same rfl rfl, hkeyed⟩
  | records _ _ hrules =>
      cases hrules with
      | same => exact ⟨.of_same rfl rfl, hkeyed⟩
      | write content hname =>
          exact ⟨⟨Nat.le_refl _, fun _ => Record.has_write _ content⟩, hkeyed.write content hname⟩
      | erase _ haction => exact absurd haction (onward_drop id _ _)
  | made _ _ _ _ _ _ _ hnew => exact absurd hnew hpresent
  | advance _ _ hcursor =>
      refine ⟨⟨?_, fun _ hhas => hhas⟩, hkeyed⟩
      simp only [Host.offset, hcursor, Option.map_some, Option.getD_some, Cursor.offset_advance]
      exact Nat.le_add_right _ _
  | mark | define | write =>
      refine ⟨.of_same (Host.cursor_setAttribute _ _ _) (Host.ownRules_setAttribute _ _ _), ?_⟩
      rwa [Host.ownRules_setAttribute]

/-- A parser with a root that reads on does not begin again. -/
theorem Law.Move.hostChange (hmove : (onward id).Move inv world after)
    (hroot : ∃ root, (world.host id).root = some root) :
    (onward id).HostChange world id (after.host id) := by
  have hhost := hmove.host id
  generalize after.host id = host at hhost ⊢
  cases hhost with
  | change hchange => exact hchange
  | restart _ hcause =>
      obtain ⟨root, hroot⟩ := hroot
      rcases hcause with hnone | ⟨_, _, hcall⟩
      · cases hroot.symm.trans hnone
      · exact absurd hcall (onward_reset id)

/-- A list of open nodes that holds something is not emptied. -/
theorem Law.Move.opened {law : Law} (hwithin : law.Within orderly)
    (hmove : law.Move inv world after) (horderly : world.Orderly) {number : Nat}
    (hsize : 0 < (world.items (.stack number)).size) :
    0 < (after.items (.stack number)).size := by
  have hchanged : ∀ (ref : ListRef) (change : Array Value → Array Value),
      0 < (change (world.items ref)).size →
      0 < ((world.changeItems ref change).items (.stack number)).size := by
    classical
    intro ref change hchange
    rw [World.items_changeItems]
    split
    next hsame => exact hsame.1 ▸ hchange
    next => exact hsize
  cases hmove.shaped (hwithin.trans orderly_loose) horderly.shaped with
  | change hchange => rwa [World.items, hchange.openStacks]
  | restart id input =>
      rw [World.items_restart]
      split
      next => exact Nat.one_pos
      next => exact hsize
  | openNode =>
      refine hchanged _ _ ?_
      rw [Array.size_push]
      exact Nat.succ_pos _
  | closeNode hopen =>
      refine hchanged _ _ ?_
      rw [Array.size_pop]
      omega
  | attach => exact hsize

/-- Whatever the law permits leaves a parser at work, no further back. -/
theorem World.AtWork.move (hwork : world.AtWork id text)
    (hmove : (onward id).Move World.Orderly world after) :
    after.AtWork id text ∧ (after.host id).Follows (world.host id) := by
  have hchange := hmove.hostChange hwork.root
  obtain ⟨hfollows, hkeyed⟩ := hchange.follows hwork.present hwork.keyed
  have hworks := (hchange.works (onward_orderly id)).resolve_right fun hnew =>
    hwork.present hnew.1
  obtain ⟨number, hstack, hsize⟩ := hwork.opened
  refine ⟨?_, hfollows⟩
  exact
    { orderly := orderly_preserved (onward_orderly id) world after hmove hwork.orderly
      hostClass := hworks.hostClass.trans hwork.hostClass
      input := hworks.input.trans hwork.input
      root := hworks.root ▸ hwork.root
      rules := hworks.rules.trans hwork.rules
      keyed := hkeyed
      opened := ⟨number, hworks.stack.trans hstack,
        hmove.opened (onward_orderly id) hwork.orderly hsize⟩ }

end Moves

/-- A parser at work stays at work and goes on from a host. -/
theorem onward_upholds (id : HostId) (text : String) (before : Host) :
    (onward id).Upholds fun world =>
      world.AtWork id text ∧ (world.host id).Follows before where
  preserves := by
    rintro world after hmove ⟨hwork, hfollows⟩
    obtain ⟨hafter, hlater⟩ := hwork.move (hmove.mono fun _ hboth => hboth.1.orderly)
    exact ⟨hafter, hlater.trans hfollows⟩
  clears hown hboth hasked := by
    refine Bool.and_eq_true_iff.mpr ⟨?_, ?_⟩
    · exact orderly_clears (onward_orderly id) hown hboth.1.orderly
        ((onward_orderly id).own _ _ _ hasked)
    · cases hown <;> rfl

end Rulebook
