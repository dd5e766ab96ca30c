import Mathlib.Data.List.Nodup
import Rulebook.Proofs.History
import Rulebook.Proofs.Alike.Script

/-!
# Histories that collapse

Of everything that was registered on a parser only this matters for what it parses: which labels
there are, in the order in which they first came in, and what was registered last under each. A
parser on which that alone was registered parses every text to the same end. The two parsers differ
in the serial numbers of their rules and in their registries, so this is told of scripts that do not
read a registry.
-/

namespace Rulebook

open Run

/-! ## The requests that count -/

/-- Whether a request registers a rule under a label. -/
def Request.isUnder (label : String) (request : Request) : Bool :=
  request.accepted?.any fun entry => entry.1 == label

/-- For each label, in the order in which the labels first came in, the last request that registered
a rule under it. -/
def collapsed (requests : List Request) : List Request :=
  ((history requests).map Prod.fst).eraseDups.filterMap fun label =>
    requests.reverse.find? (Request.isUnder label)

theorem Request.isUnder_iff {label : String} {request : Request} :
    request.isUnder label = true ↔ ∃ origin, request.accepted? = some (label, origin) := by
  rw [Request.isUnder]
  cases request.accepted? with
  | none => simp
  | some entry =>
      obtain ⟨other, origin⟩ := entry
      simp

/-- The last request under a label registered what was last registered under it. -/
theorem find?_isUnder (label : String) (requests : List Request) :
    (requests.reverse.find? (Request.isUnder label)).bind Request.accepted? =
      (lastUnder label (history requests)).map fun origin => (label, origin) := by
  induction requests using List.reverseRecOn with
  | nil => rfl
  | append_singleton requests request ih =>
      rw [List.reverse_append, List.reverse_singleton, List.singleton_append, List.find?_cons,
        history, List.filterMap_append]
      by_cases hunder : request.isUnder label = true
      · obtain ⟨origin, horigin⟩ := Request.isUnder_iff.mp hunder
        rw [hunder]
        simp [horigin, lastUnder]
      · rw [Bool.not_eq_true] at hunder
        rw [hunder, ih]
        cases hentry : request.accepted? with
        | none => simp [hentry, history]
        | some entry =>
            obtain ⟨other, origin⟩ := entry
            have hother : other ≠ label := by
              rintro rfl
              simp [Request.isUnder, hentry] at hunder
            simp [hentry, lastUnder, history, List.lookup_cons, beq_false_of_ne hother.symm]

theorem lastUnder_isSome {α : Type} {entries : List (String × α)} {label : String} :
    (lastUnder label entries).isSome ↔ label ∈ entries.map Prod.fst := by
  rw [lastUnder, lookup_isSome, List.map_reverse, List.mem_reverse]

/-- What is told under each of some labels is found under them again. -/
theorem lookup_filterMap {α : Type} (told : String → Option α) (labels : List String)
    (label : String) :
    (labels.filterMap fun label => (told label).map fun value => (label, value)).lookup label =
      if label ∈ labels then told label else none := by
  induction labels with
  | nil => rfl
  | cons other rest ih =>
      rw [List.filterMap_cons]
      by_cases heq : label = other
      · subst heq
        cases htold : told label with
        | none => simp [ih, htold]
        | some value => simp
      · cases htold : told other with
        | none => simp [ih, heq]
        | some value => simp [List.lookup_cons, beq_false_of_ne heq, ih, heq]

theorem map_fst_filterMap {α : Type} (told : String → Option α) {labels : List String}
    (htold : ∀ label ∈ labels, (told label).isSome) :
    (labels.filterMap fun label => (told label).map fun value => (label, value)).map Prod.fst =
      labels := by
  induction labels with
  | nil => rfl
  | cons label rest ih =>
      obtain ⟨hlabel, hrest⟩ := List.forall_mem_cons.mp htold
      obtain ⟨value, hvalue⟩ := Option.isSome_iff_exists.mp hlabel
      rw [List.filterMap_cons, hvalue, Option.map_some, List.map_cons, ih hrest]

theorem eraseDups_of_nodup {labels : List String} (hnodup : labels.Nodup) :
    labels.eraseDups = labels := by
  induction labels with
  | nil => rfl
  | cons label rest ih =>
      obtain ⟨habsent, hrest⟩ := List.nodup_cons.mp hnodup
      have hkept : (rest.filter fun other => !other == label) = rest :=
        List.filter_eq_self.mpr fun other hother => by
          simpa using fun heq : other = label => habsent (heq ▸ hother)
      rw [List.eraseDups_cons, hkept, ih hrest]

section History

variable (requests : List Request)

/-- The labels that rules were registered under, in the order in which they first came in. -/
def registeredLabels : List String := ((history requests).map Prod.fst).eraseDups

theorem keys_history : (Table.ofList (history requests)).keys = registeredLabels requests :=
  Table.keys_ofList _

theorem nodup_registeredLabels : (registeredLabels requests).Nodup :=
  keys_history requests ▸ Table.nodup_ofList _

theorem history_collapsed :
    history (collapsed requests) = (registeredLabels requests).filterMap fun label =>
      (lastUnder label (history requests)).map fun origin => (label, origin) := by
  rw [history, collapsed, List.filterMap_filterMap]
  exact congrArg (List.filterMap · _) (funext fun label => find?_isUnder label requests)

theorem mem_registeredLabels {label : String} :
    label ∈ registeredLabels requests ↔ (lastUnder label (history requests)).isSome := by
  rw [registeredLabels, List.mem_eraseDups, lastUnder_isSome]

/-- Each label is registered once in what a history collapses to. -/
theorem labels_collapsed :
    (history (collapsed requests)).map Prod.fst = registeredLabels requests := by
  rw [history_collapsed]
  exact map_fst_filterMap _ fun label => (mem_registeredLabels requests).mp

theorem lastUnder_collapsed (label : String) :
    lastUnder label (history (collapsed requests)) = lastUnder label (history requests) := by
  rw [history_collapsed, lastUnder, ← List.filterMap_reverse, lookup_filterMap]
  split
  next => rfl
  next habsent =>
    rw [List.mem_reverse, mem_registeredLabels, Option.not_isSome_iff_eq_none] at habsent
    exact habsent.symm

/-- What a history collapses to is one accepted request for each label. -/
theorem accepted_collapsed :
    (collapsed requests).map Request.accepted? = (registeredLabels requests).map fun label =>
      (lastUnder label (history requests)).map fun origin => (label, origin) := by
  rw [collapsed, List.map_filterMap, ← registeredLabels, ← List.filterMap_eq_map]
  refine List.filterMap_congr fun label hlabel => ?_
  obtain ⟨origin, horigin⟩ :=
    Option.isSome_iff_exists.mp ((mem_registeredLabels requests).mp hlabel)
  have hfound := find?_isUnder label requests
  rw [horigin] at hfound
  obtain ⟨request, hrequest, haccepted⟩ := Option.bind_eq_some_iff.mp hfound
  rw [hrequest, Option.map_some, haccepted, Function.comp_apply, horigin]
  rfl

theorem accepted_of_mem_collapsed {request : Request} (hrequest : request ∈ collapsed requests) :
    ∃ entry, request.accepted? = some entry := by
  obtain ⟨label, _, hfound⟩ := List.mem_filterMap.mp hrequest
  obtain ⟨origin, haccepted⟩ := Request.isUnder_iff.mp (List.find?_some hfound)
  exact ⟨_, haccepted⟩

theorem registeredLabels_collapsed :
    registeredLabels (collapsed requests) = registeredLabels requests := by
  rw [registeredLabels, labels_collapsed]
  exact eraseDups_of_nodup (nodup_registeredLabels requests)

end History

/-! ## The rules that are left -/

theorem forall₂_comp {α β γ : Type} {first : α → β → Prop} {second : β → γ → Prop}
    {both : α → γ → Prop} {xs : List α} {ys : List β} {zs : List γ}
    (hfirst : List.Forall₂ first xs ys) (hsecond : List.Forall₂ second ys zs)
    (hboth : ∀ {x y z}, first x y → second y z → both x z) : List.Forall₂ both xs zs := by
  induction hfirst generalizing zs with
  | nil =>
      cases hsecond
      exact .nil
  | cons hhead _ ih =>
      obtain _ | ⟨hhead', hrest'⟩ := hsecond
      exact .cons (hboth hhead hhead') (ih hrest')

/-- Tables with the same keys are related if what is under each of them is. -/
theorem Table.alike_of_keys {α β : Type} {entries : α → β → Prop} {table : Table String α}
    {other : Table String β} (hkeys : table.keys = other.keys) (hnodup : table.keys.Nodup)
    (hentries : ∀ key, Option.Rel entries (table.get? key) (other.get? key)) :
    Table.Alike Eq entries table other := by
  obtain ⟨content⟩ := table
  obtain ⟨content'⟩ := other
  simp only [Table.Alike, Table.keys, Table.get?] at *
  induction content generalizing content' with
  | nil =>
      rw [List.map_nil] at hkeys
      rw [List.map_eq_nil_iff.mp hkeys.symm]
      exact .nil
  | cons entry rest ih =>
      obtain ⟨key, value⟩ := entry
      cases content' with
      | nil => cases hkeys
      | cons entry' rest' =>
          obtain ⟨key', value'⟩ := entry'
          obtain ⟨rfl, hrest⟩ := List.cons.inj hkeys
          obtain ⟨hhead, hnodup⟩ := List.nodup_cons.mp hnodup
          refine .cons ⟨rfl, ?_⟩ (ih hnodup rest' hrest fun other => ?_)
          · have hvalue := hentries key
            rw [List.lookup_cons_self, List.lookup_cons_self] at hvalue
            cases hvalue with
            | some hvalue => exact hvalue
          · by_cases heq : other = key
            · subst heq
              rw [lookup_absent hhead, lookup_absent (hrest ▸ hhead)]
              exact .none
            · have hother := hentries other
              rwa [List.lookup_cons, List.lookup_cons, beq_false_of_ne heq] at hother

/-! ## Numbers that stand for each other -/

/-- The bond that pairs every number with itself, but for a stretch of numbers that are paired as
told. -/
def Bond.around (first last : Nat) (inner : Nat → Nat → Prop) (hunique : Relator.BiUnique inner)
    (hinner : ∀ {one other}, inner one other →
      (first ≤ one ∧ one < last) ∧ first ≤ other ∧ other < last) (parser : HostId) : Bond where
  Pairs one other := inner one other ∨ one = other ∧ (one < first ∨ last ≤ one)
  parser
  unique := by
    refine ⟨fun one two other hone htwo => ?_, fun one other two hone htwo => ?_⟩
    · rcases hone with hone | ⟨rfl, hone⟩ <;> rcases htwo with htwo | ⟨rfl, htwo⟩
      · exact hunique.1 hone htwo
      · have := hinner hone
        omega
      · have := hinner htwo
        omega
      · rfl
    · rcases hone with hone | ⟨rfl, hone⟩ <;> rcases htwo with htwo | ⟨rfl, htwo⟩
      · exact hunique.2 hone htwo
      · have := hinner hone
        omega
      · have := hinner htwo
        omega
      · rfl

/-- The bond of a world with itself: its numbers are those that were used, and what is out of sight
is the registry of the next parser. -/
def World.ownBond (world : World) : Bond where
  Pairs one other := one = other ∧ one < world.serial
  parser := world.hosts.size
  unique := ⟨fun _ _ _ hone htwo => hone.1.trans htwo.1.symm,
    fun _ _ _ hone htwo => hone.1.symm.trans htwo.1⟩

/-- All values in a world have numbers that were used, none refers to a registry that is not there
yet, and no callback among them reads a registry. -/
def World.Settled (world : World) : Prop := world.Resembles world.ownBond world

/-- A value fits in with a world that is settled. -/
def Value.Settled (world : World) (value : Value) : Prop := value.Alike world.ownBond value

/-- The last rule under a label could take a serial number. -/
def Numbered (entries : List (String × Nat × Origin)) (label : String) (serial : Nat) : Prop :=
  ∃ origin, lastUnder label entries = some (serial, origin)

theorem mem_of_lastUnder {α : Type} {entries : List (String × α)} {label : String} {value : α}
    (hlast : lastUnder label entries = some value) : (label, value) ∈ entries :=
  List.mem_reverse.mp (mem_of_lookup hlast)

section Numbered

variable {register register' : Register} {first first' : Nat}
  {entries entries' : List (String × Nat × Origin)}

theorem Register.Tells.numbered_bounds (htells : register.Tells first entries) {label : String}
    {serial : Nat} (hnumbered : Numbered entries label serial) :
    first ≤ serial ∧ serial < register.serial := by
  obtain ⟨origin, hlast⟩ := hnumbered
  exact htells.bounds _ (mem_of_lastUnder hlast)

/-- No two labels share a number. -/
theorem Register.Tells.numbered_label (htells : register.Tells first entries)
    {label label' : String} {serial : Nat} (hlabel : Numbered entries label serial)
    (hlabel' : Numbered entries label' serial) : label = label' := by
  obtain ⟨origin, hlast⟩ := hlabel
  obtain ⟨origin', hlast'⟩ := hlabel'
  have hnodup : (entries.map fun entry => entry.2.1).Nodup := htells.increasing.imp Nat.ne_of_lt
  have hentry := List.inj_on_of_nodup_map hnodup (mem_of_lastUnder hlast)
    (mem_of_lastUnder hlast') rfl
  exact congrArg Prod.fst hentry

theorem map_fst_unnumbered (entries : List (String × Nat × Origin)) :
    (unnumbered entries).map Prod.fst = entries.map Prod.fst := List.map_map

theorem Numbered.unique {label : String} {serial serial' : Nat}
    (hserial : Numbered entries label serial) (hserial' : Numbered entries label serial') :
    serial = serial' := by
  obtain ⟨origin, hlast⟩ := hserial
  obtain ⟨origin', hlast'⟩ := hserial'
  rw [hlast] at hlast'
  exact congrArg Prod.fst (Option.some.inj hlast')

/-- Two last rules under one label: of one origin, with numbers that stand for each other. -/
structure SameOrigin (bond : Bond) (numbered numbered' : Nat × Origin) : Prop where
  origin : numbered.2 = numbered'.2
  pairs : bond.Pairs numbered.1 numbered'.1
  given : ∀ rule, numbered.2 = .given rule → rule.Alike bond rule

theorem SameOrigin.value_alike {bond : Bond} {numbered numbered' : Nat × Origin}
    (hsame : SameOrigin bond numbered numbered') (label : String) :
    (numbered.2.value numbered.1 label).Alike bond (numbered'.2.value numbered'.1 label) := by
  obtain ⟨serial, origin⟩ := numbered
  obtain ⟨serial', origin'⟩ := numbered'
  obtain rfl : origin = origin' := hsame.origin
  cases origin with
  | given rule => exact hsame.given rule rfl
  | captured pattern => exact .patternRule hsame.pairs _ (.text label) (.pattern pattern)

/-- Entries that tell the same of a label end under it in rules of one origin. -/
theorem sameOrigin_lastUnder {bond : Bond} {label : String}
    (hlast : lastUnder label (unnumbered entries) = lastUnder label (unnumbered entries'))
    (hgiven : ∀ rule, lastUnder label (unnumbered entries) = some (.given rule) →
      rule.Alike bond rule)
    (hpairs : ∀ {serial serial'}, Numbered entries label serial →
      Numbered entries' label serial' → bond.Pairs serial serial') :
    Option.Rel (SameOrigin bond) (lastUnder label entries) (lastUnder label entries') := by
  rw [lastUnder_unnumbered] at hgiven hlast
  rw [lastUnder_unnumbered] at hlast
  cases hentry : lastUnder label entries with
  | none =>
      rw [hentry] at hlast
      rw [Option.map_eq_none_iff.mp hlast.symm]
      exact .none
  | some numbered =>
      rw [hentry] at hlast hgiven
      obtain ⟨numbered', hentry', horigin⟩ := Option.map_eq_some_iff.mp hlast.symm
      rw [hentry']
      exact .some
        { origin := horigin.symm
          pairs := hpairs ⟨_, hentry⟩ ⟨_, hentry'⟩
          given := fun rule hrule => hgiven rule (congrArg some hrule) }

/-- Registers that tell the same of every label have alike rules, if the numbers of the rules are
paired. -/
theorem Register.Tells.rules_alike {bond : Bond} (htells : register.Tells first entries)
    (htells' : register'.Tells first' entries')
    (hlabels : ((unnumbered entries).map Prod.fst).eraseDups =
      ((unnumbered entries').map Prod.fst).eraseDups)
    (hlast : ∀ label, lastUnder label (unnumbered entries) = lastUnder label (unnumbered entries'))
    (hgiven : ∀ label rule, lastUnder label (unnumbered entries) = some (.given rule) →
      rule.Alike bond rule)
    (hpairs : ∀ {label serial serial'}, Numbered entries label serial →
      Numbered entries' label serial' → bond.Pairs serial serial') :
    register.rules.Alike bond register'.rules := by
  have htables : Table.Alike Eq (SameOrigin bond) (Table.ofList entries)
      (Table.ofList entries') := by
    refine Table.alike_of_keys ?_ (Table.nodup_ofList entries) fun label => ?_
    · rwa [Table.keys_ofList, Table.keys_ofList, ← map_fst_unnumbered, ← map_fst_unnumbered]
    · rw [Table.get?_ofList, Table.get?_ofList]
      exact sameOrigin_lastUnder (hlast label) (hgiven label) hpairs
  -- The first register's rules are told by the second one's entries, and those tell the second's.
  have hmiddle : List.Forall₂ (IsEntryOf fun label (numbered : Nat × Origin) value =>
      value.Alike bond (numbered.2.value numbered.1 label)) register.rules.entries
      (Table.ofList entries').entries := by
    refine forall₂_comp htells.rules htables ?_
    rintro entry ⟨label, numbered⟩ ⟨_, numbered'⟩ ⟨hkey, hname, hvalue⟩ ⟨rfl, hsame⟩
    refine ⟨hkey, hname, ?_⟩
    rw [hvalue]
    exact hsame.value_alike label
  refine forall₂_comp hmiddle htells'.rules.flip ?_
  rintro ⟨key, entry⟩ ⟨label, numbered⟩ ⟨key', entry'⟩ ⟨hkey, hname, hvalue⟩
    ⟨hkey', hname', hvalue'⟩
  cases hkey
  cases hkey'
  refine ⟨.text label, ?_, ?_⟩
  · rw [hname, hname']
    exact .text label
  · rw [hvalue']
    exact hvalue

end Numbered

/-! ## Two parsers side by side -/

/-- The numbers that two parsers took stand for each other: those of their `capture`, and those of
the rules that each of them has under the same label. -/
def Counterparts (serial serial' : Nat) (entries entries' : List (String × Nat × Origin))
    (one other : Nat) : Prop :=
  (one = serial + 1 ∧ other = serial' + 1) ∨
    ∃ label, Numbered entries label one ∧ Numbered entries' label other

section Counterparts

variable {serial serial' : Nat} {register register' : Register}
  {entries entries' : List (String × Nat × Origin)}

theorem Counterparts.biUnique (htells : register.Tells (serial + 2) entries)
    (htells' : register'.Tells (serial' + 2) entries') :
    Relator.BiUnique (Counterparts serial serial' entries entries') := by
  constructor
  · rintro one two other (⟨rfl, hother⟩ | ⟨label, hone, hother⟩)
      (⟨rfl, hother'⟩ | ⟨label', htwo, hother'⟩)
    · rfl
    · have := htells'.numbered_bounds hother'
      omega
    · have := htells'.numbered_bounds hother
      omega
    · rw [htells'.numbered_label hother hother'] at hone
      exact hone.unique htwo
  · rintro one other two (⟨hone, rfl⟩ | ⟨label, hone, hother⟩)
      (⟨hone', rfl⟩ | ⟨label', hone', htwo⟩)
    · rfl
    · have := htells.numbered_bounds hone'
      omega
    · have := htells.numbered_bounds hone
      omega
    · rw [htells.numbered_label hone hone'] at hother
      exact hother.unique htwo

theorem Counterparts.bounds (htells : register.Tells (serial + 2) entries)
    (htells' : register'.Tells (serial' + 2) entries') {one other : Nat}
    (hcounterparts : Counterparts serial serial' entries entries' one other) :
    (serial ≤ one ∧ one < register.serial) ∧ serial' ≤ other ∧ other < register'.serial := by
  have hfirst := htells.le
  have hfirst' := htells'.le
  rcases hcounterparts with ⟨rfl, rfl⟩ | ⟨label, hone, hother⟩
  · omega
  · have := htells.numbered_bounds hone
    have := htells'.numbered_bounds hother
    omega

/-- A bond of a world that two parsers are made in pairs their numbers, and the numbers that are
beyond both. -/
theorem exists_bond {world : World} {last : Nat} (htells : register.Tells (serial + 2) entries)
    (htells' : register'.Tells (serial' + 2) entries')
    (hserial : world.serial ≤ serial) (hserial' : world.serial ≤ serial')
    (hlast : register.serial ≤ last) (hlast' : register'.serial ≤ last) :
    ∃ bond : Bond, world.ownBond.Le bond ∧ (∀ number, last ≤ number → bond.Pairs number number) ∧
      bond.Pairs (serial + 1) (serial' + 1) ∧
      ∀ {label one other}, Numbered entries label one → Numbered entries' label other →
        bond.Pairs one other := by
  have hbounds : ∀ {one other}, Counterparts serial serial' entries entries' one other →
      (world.serial ≤ one ∧ one < last) ∧ world.serial ≤ other ∧ other < last := by
    intro one other hcounterparts
    have := hcounterparts.bounds htells htells'
    omega
  refine ⟨.around world.serial last _ (Counterparts.biUnique htells htells') hbounds
    world.hosts.size, ⟨?_, rfl, Iff.rfl⟩, ?_, ?_, ?_⟩
  · exact fun hpairs => .inr ⟨hpairs.1, .inl hpairs.2⟩
  · exact fun number hnumber => .inr ⟨rfl, .inr hnumber⟩
  · exact .inl (.inl ⟨rfl, rfl⟩)
  · exact fun hone hother => .inl (.inr ⟨_, hone, hother⟩)

end Counterparts

/-- The tables of the parser whose registry is out of sight may be replaced where the rules are
alike. -/
theorem World.Alike.withTables {bond : Bond} {world world' : World}
    (hworld : world.Alike bond world') (hnone : bond.apart = none) {rules rules' : Record}
    (hrules : rules.Alike bond rules') (patterns patterns' : Record) :
    (world.withTables bond.parser rules patterns).Alike bond
      (world'.withTables bond.parser rules' patterns') := by
  have hruled : (world.changeRecord (.rules bond.parser) fun _ => rules).Alike bond
      (world'.changeRecord (.rules bond.parser) fun _ => rules') :=
    hworld.changeRecord (.inr hnone) fun _ _ _ _ => hrules
  have hregistered : ((world.changeRecord (.rules bond.parser) fun _ => rules).changeRecord
      bond.registry fun _ => patterns).Alike bond
        ((world'.changeRecord (.rules bond.parser) fun _ => rules').changeRecord
          bond.registry fun _ => patterns') :=
    hruled.changeRecord (.inr hnone) fun hsight => absurd rfl hsight
  simp only [World.changeRecord, Bond.registry, changeHost_changeHost] at hregistered
  exact hregistered

theorem World.Alike.withNotices {bond : Bond} {world world' : World}
    (hworld : world.Alike bond world') (hnone : bond.apart = none)
    (notices notices' : Array Notice) :
    World.Alike bond { world with notices } { world' with notices := notices' } :=
  { hworld with
    sizes := { hworld.sizes with }
    notices := fun _ happart => absurd (hnone.symm.trans happart) (Option.some_ne_none _).symm }

/-- What serial number a parser is made at can be seen in its `capture` alone. -/
theorem addEquipped_withRegister (world : World) (serial last : Nat) (register : Register) :
    ((world.withSerial serial).addEquipped.withRegister world.hosts.size register).withSerial last =
      { ((world.withSerial last).addParser.addCapture world.hosts.size (serial + 1)).withTables
          world.hosts.size register.rules register.patterns with
            notices := register.notices } := rfl

/-- A parser that is new in a settled world is made in two ways. The worlds are alike where its
rules are, whatever is in its registry. -/
theorem World.Settled.addEquipped_alike {world : World} {bond : Bond} {serial serial' last : Nat}
    {register register' : Register} (hsettled : world.Settled) (hwider : world.ownBond.Le bond)
    (hfits : ∀ number, last ≤ number → bond.Pairs number number)
    (hcapture : bond.Pairs (serial + 1) (serial' + 1))
    (hrules : register.rules.Alike bond register'.rules) :
    (((world.withSerial serial).addEquipped.withRegister world.hosts.size register).withSerial
      last).Alike bond
        (((world.withSerial serial').addEquipped.withRegister world.hosts.size register').withSerial
          last) ∧ bond.apart = none := by
  have hparser : world.hosts.size = bond.parser := hwider.parser
  have hnone : bond.apart = none := hwider.apart.mp rfl
  have hresembles := hsettled.mono hwider hnone.symm
  have hstart : (world.withSerial last).Alike bond (world.withSerial last) :=
    { hresembles with sizes := ⟨rfl, rfl, rfl, rfl, rfl⟩, serial := rfl, fits := hfits }
  have hmade : (world.withSerial last).addParser.Alike bond (world.withSerial last).addParser :=
    (Bond.Follows.newParser .parser .null _ _ hstart).2
  have hequipped : ((world.withSerial last).addParser.addCapture bond.parser (serial + 1)).Alike bond
      ((world.withSerial last).addParser.addCapture bond.parser (serial' + 1)) :=
    hmade.changeHost (.inl hnone)
      { alike := fun hhost =>
          hhost.setAttribute "capture" (.bound hcapture (.inl hnone) .captureRule)
        keeps := Host.keepsOwn_setAttribute "capture" _
        keeps' := Host.keepsOwn_setAttribute "capture" _ }
  have htables := hequipped.withTables hnone hrules register.patterns register'.patterns
  rw [addEquipped_withRegister, addEquipped_withRegister, hparser]
  exact ⟨htables.withNotices hnone register.notices register'.notices, hnone⟩

/-! ## What comes of a parse -/

/-- Parses a text and draws what comes of it, down to a depth. -/
def drawnParse (kernel : Kernel) (reach : Nat) (id : HostId) (text : String) : Run Datum := do
  pictureWithin reach [] (← kernel.sendHost id "parse" [.text text])

theorem drawnParse_alike {bond : Bond} {world world' : World}
    (hworlds : world.Alike bond world' ∧ bond.apart = none) (rounds depth reach : Nat)
    (id : HostId) (text : String) :
    ((drawnParse (Kernel.ofDepth rounds depth) reach id text).outcome world).1 =
      ((drawnParse (Kernel.ofDepth rounds depth) reach id text).outcome world').1 := by
  have hid : bond.Sees id := .inl hworlds.2
  have hparse := (alike_ofDepth bond rounds depth).sendHost hid "parse" (.cons (.text text) .nil)
  have hdrawn : bond.Follows Eq (drawnParse (Kernel.ofDepth rounds depth) reach id text)
      (drawnParse (Kernel.ofDepth rounds depth) reach id text) :=
    hparse.bind fun _ _ htree => .pictureWithin reach [] htree
  exact (hdrawn world world' hworlds.1).1.eq

/-- The keys of the rules are the labels that were registered. -/
theorem Register.Tells.keys_rules {register : Register} {first : Nat}
    {entries : List (String × Nat × Origin)} (htells : register.Tells first entries) :
    register.rules.keys = ((unnumbered entries).map Prod.fst).eraseDups.map Key.text := by
  rw [map_fst_unnumbered, ← Table.keys_ofList, Table.keys, Table.keys, List.map_map]
  exact map_eq_of_forall₂ htells.rules fun hentry => hentry.1

/-- Requests of a new parser leave in a world, whatever the serial numbers begin at, what their
history tells. -/
theorem newRequested_register (world : World) (serial rounds depth : Nat)
    (requests : List Request) :
    ∃ results register entries,
      (newRequested (Kernel.ofDepth rounds (depth + 3)) requests).outcome
        (world.withSerial serial) =
        (.ok (world.hosts.size, results),
          (world.withSerial serial).addEquipped.withRegister world.hosts.size register) ∧
      Reported requests results ∧ register.Tells (serial + 2) entries ∧
      unnumbered entries = history requests := by
  obtain ⟨results, hrun, hreported⟩ :=
    @newRequested_outcome (world.withSerial serial) rounds depth requests
  obtain ⟨entries, htells, hentries⟩ :=
    Register.exists_tells (world.notices.push (.installed .parser)) (serial + 2) requests
  exact ⟨results, _, entries, hrun, hreported, htells, hentries⟩

/-- Requests that are all accepted all come to something. -/
theorem Reported.all_ok {requests : List Request} {results : List (Except Fault Value)}
    (hreported : Reported requests results)
    (haccepted : ∀ request ∈ requests, ∃ entry, request.accepted? = some entry) :
    ∀ result ∈ results, ∃ value, result = .ok value := by
  induction hreported with
  | nil => nofun
  | cons hhead _ ih =>
      obtain ⟨hfirst, hrest⟩ := List.forall_mem_cons.mp haccepted
      exact List.forall_mem_cons.mpr ⟨hhead.mpr hfirst, ih hrest⟩

/-- After any requests of a new parser, some of which may be refused, the labels of its rules are
those of the requests that were accepted, in the order in which they first came in, and under each
is what was registered last. A parser that is asked for that alone, once for each label and in the
same order, parses every text to the same tree or to the same fault, if no callback reads a
registry. The serial numbers of the two parsers differ; what is parsed counts on from any number
that is beyond both. -/
theorem requests_collapse (world : World) (requests : List Request)
    (rounds depth serial serial' : Nat) :
    ∃ id results results' after after',
      (newRequested (Kernel.ofDepth rounds (depth + 3)) requests).outcome
          (world.withSerial serial) = (.ok (id, results), after) ∧
        Reported requests results ∧
      (newRequested (Kernel.ofDepth rounds (depth + 3)) (collapsed requests)).outcome
          (world.withSerial serial') = (.ok (id, results'), after') ∧
        (∀ result ∈ results', ∃ value, result = .ok value) ∧
      (after.host id).rules = some (.record (.rules id)) ∧
      (after.record (.rules id)).keys = (registeredLabels requests).map Key.text ∧
      (∀ label, match lastUnder label (history requests) with
        | none => after.valueUnder (.rules id) label = none
        | some origin => ∃ number,
          after.valueUnder (.rules id) label = some (origin.value number label)) ∧
      (collapsed requests).map Request.accepted? = (registeredLabels requests).map (fun label =>
        (lastUnder label (history requests)).map fun origin => (label, origin)) ∧
      (world.Settled → world.serial ≤ serial → world.serial ≤ serial' →
        (∀ label rule, lastUnder label (history requests) = some (.given rule) →
          rule.Settled world) →
        ∀ rounds depth reach text last, after.serial ≤ last → after'.serial ≤ last →
          ((drawnParse (Kernel.ofDepth rounds depth) reach id text).outcome
              (after.withSerial last)).1 =
            ((drawnParse (Kernel.ofDepth rounds depth) reach id text).outcome
              (after'.withSerial last)).1) := by
  obtain ⟨results, register, entries, hrun, hreported, htells, hentries⟩ :=
    newRequested_register world serial rounds depth requests
  obtain ⟨results', register', entries', hrun', hreported', htells', hentries'⟩ :=
    newRequested_register world serial' rounds depth (collapsed requests)
  have hregisters : (world.withSerial serial).addEquipped.Registers world.hosts.size :=
    World.registers_addEquipped
  have hrecord : ((world.withSerial serial).addEquipped.withRegister world.hosts.size
      register).record (.rules world.hosts.size) = register.rules :=
    congrArg Register.rules (World.register_withRegister register hregisters.plain.present)
  refine ⟨_, results, results', _, _, hrun, hreported, hrun', ?_, ?_, ?_, ?_, ?_, ?_⟩
  · exact hreported'.all_ok fun _ => accepted_of_mem_collapsed requests
  · exact (hregisters.withRegister register).rules
  · rw [hrecord, htells.keys_rules, hentries, registeredLabels]
  · intro label
    have hrule := htells.rule_under label
    rw [hentries] at hrule
    rwa [World.valueUnder, hrecord]
  · exact accepted_collapsed requests
  · intro hsettled hserial hserial' hgiven rounds depth reach text last hlast hlast'
    obtain ⟨bond, hwider, hfits, hcapture, hpairs⟩ :=
      exists_bond htells htells' hserial hserial' hlast hlast'
    have hrules : register.rules.Alike bond register'.rules := by
      refine htells.rules_alike htells' ?_ ?_ ?_ hpairs
      · rw [hentries, hentries']
        exact (registeredLabels_collapsed requests).symm
      · intro label
        rw [hentries, hentries', lastUnder_collapsed]
      · intro label rule hrule
        rw [hentries] at hrule
        exact (hgiven label rule hrule).mono hwider
    exact drawnParse_alike (hsettled.addEquipped_alike hwider hfits hcapture hrules) _ _ _ _ _

/-- A label is captured twice, with a callback and a refused request between. -/
def relabelled : List Request :=
  [.capture (.text "x") (.text "^a") "", .set "y" (.callback 0 "pass" []),
    .capture (.text "") (.text "^c") "", .capture (.text "x") (.text "^b") ""]

/-- Nothing is in a world before anything happened. -/
theorem World.settled_start (serial : Nat) : (World.start.withSerial serial).Settled where
  sizes := ⟨rfl, rfl, rfl, rfl, rfl⟩
  cell id := by
    exact
      { label := .null, val := .null, position := .null, children := .null, parent := .null
        notes := .null, extras := .empty }
  host id _ := by
    exact
      { hostClass := rfl, options := .none, nested := .none, rules := .none, patterns := .none
        input := .none, cursor := rfl, root := .none, stack := .none, members := .empty }
  items ref := by cases ref <;> exact .nil
  record ref _ := by cases ref <;> exact .nil
  extras := .empty
  globals := .empty
  frame := .empty
  traces := rfl
  apart _ happart := absurd happart (Option.some_ne_none _).symm
  notices _ happart := absurd happart (Option.some_ne_none _).symm

theorem relabelled_parses :
    ∃ id results results' after after',
      (newRequested (Kernel.ofDepth 4 5) relabelled).outcome (World.start.withSerial 1) =
        (.ok (id, results), after) ∧
      (newRequested (Kernel.ofDepth 4 5) (collapsed relabelled)).outcome
        (World.start.withSerial 1) = (.ok (id, results'), after') ∧
      ((drawnParse (Kernel.ofDepth 4 5) 9 id "b").outcome
          (after.withSerial (after.serial + after'.serial))).1 =
        ((drawnParse (Kernel.ofDepth 4 5) 9 id "b").outcome
          (after'.withSerial (after.serial + after'.serial))).1 := by
  obtain ⟨id, results, results', after, after', hrun, _, hrun', _, _, _, _, _, hparse⟩ :=
    requests_collapse (World.start.withSerial 1) relabelled 4 2 1 1
  refine ⟨id, results, results', after, after', hrun, hrun', ?_⟩
  refine hparse (World.settled_start 1) (Nat.le_refl 1) (Nat.le_refl 1) ?_ 4 5 9 "b" _
    (Nat.le_add_right _ _) (Nat.le_add_left _ _)
  intro label rule hrule
  obtain ⟨_, rfl⟩ : "y" = label ∧ Value.callback 0 "pass" [] = rule := by
    simpa [history, relabelled, Request.accepted?, Value.origin?, Value.isCallable] using
      mem_of_lastUnder hrule
  have hpairs : (World.start.withSerial 1).ownBond.Pairs 0 0 := ⟨rfl, Nat.one_pos⟩
  exact Value.Alike.callback hpairs "pass" rfl

end Rulebook
