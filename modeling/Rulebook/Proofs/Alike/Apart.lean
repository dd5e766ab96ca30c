import Rulebook.Proofs.Alike.Script
import Rulebook.Proofs.Reading

/-!
# Worlds that differ in one host

What a run cannot get at does not matter to it. If nothing but a host itself refers to the host,
runs end as they do with anything else in the place of the host, and after any other notices: with
the same results, with the same notices added, and in worlds that again differ in that host and in
the notices from before alone. The host stays as it was.
-/

namespace Rulebook

open Run

/-- The world with something else in the place of a host, and with other notices. -/
def World.withHost (world : World) (id : HostId) (host : Host) (notices : Array Notice) : World :=
  { world.changeHost id fun _ => host with notices }

/-- The bond of two worlds that differ in the host under a number and in their notices alone. -/
def Bond.beside (id : HostId) (apart : Apart) : Bond where
  Pairs := Eq
  unique := biUnique_eq
  parser := id
  apart := some apart

/-- A value refers neither to a host nor to a record that the host was made with. -/
def Value.Unaware (id : HostId) (value : Value) : Prop :=
  ∀ apart, value.Alike (.beside id apart) value

/-- A host is there, and nothing in the world refers to it or to a record that it was made with,
unless it is in the host itself. -/
def World.Unaware (world : World) (id : HostId) : Prop :=
  ∃ apart, world.Alike (.beside id apart) world

/-! ## What is alike but for nothing -/

section Eq

variable {bond : Bond} (hpairs : ∀ {one other}, bond.Pairs one other → one = other)

include hpairs

theorem Value.Alike.eq {value value' : Value} (halike : value.Alike bond value') :
    value = value' := by
  induction halike with
  | location hserial _ _ _ hline hcolumn hoffset => rw [hpairs hserial, hline, hcolumn, hoffset]
  | span hserial _ _ hstart hstop => rw [hpairs hserial, hstart, hstop]
  | found hserial | callback hserial | plugin hserial => rw [hpairs hserial]
  | patternRule hserial _ _ _ hlabel hpattern => rw [hpairs hserial, hlabel, hpattern]
  | stamp hserial _ _ hstart => rw [hpairs hserial, hstart]
  | bound hserial _ _ hcallable => rw [hpairs hserial, hcallable]
  | method hserial _ _ hreceiver => rw [hpairs hserial, hreceiver]
  | _ => rfl

theorem Key.Alike.eq {key key' : Key} (halike : key.Alike bond key') : key = key' := by
  induction halike with
  | location _ _ _ hline hcolumn hoffset => rw [hline, hcolumn, hoffset]
  | span _ _ hstart hstop => rw [hstart, hstop]
  | found hserial | function hserial => rw [hpairs hserial]
  | bound _ _ hcallable => rw [hcallable]
  | method _ _ hreceiver => rw [hreceiver]
  | _ => rfl

theorem Bond.Items.eq {items items' : Array Value} (hitems : bond.Items items items') :
    items = items' := by
  have heq : List.Forall₂ Eq items.toList items'.toList :=
    List.Forall₂.imp (fun _ _ halike => halike.eq hpairs) hitems
  rw [List.forall₂_eq_eq_eq] at heq
  exact Array.toList_inj.mp heq

omit hpairs in
theorem Table.Alike.eq {κ α : Type} {keys : κ → κ → Prop} {entries : α → α → Prop}
    {table table' : Table κ α} (htables : Table.Alike keys entries table table')
    (hkeys : ∀ {key key'}, keys key key' → key = key')
    (hentries : ∀ {entry entry'}, entries entry entry' → entry = entry') : table = table' := by
  have heq : List.Forall₂ Eq table.entries table'.entries :=
    List.Forall₂.imp (fun _ _ hentry => Prod.ext (hkeys hentry.1) (hentries hentry.2)) htables
  rw [List.forall₂_eq_eq_eq] at heq
  exact congrArg Table.mk heq

theorem Bond.Fields.eq {fields fields' : Table String Value}
    (hfields : bond.Fields fields fields') : fields = fields' :=
  Table.Alike.eq hfields (fun heq => heq) fun halike => halike.eq hpairs

theorem Record.Alike.eq {record record' : Record} (halike : record.Alike bond record') :
    record = record' := by
  refine Table.Alike.eq halike (fun hkey => hkey.eq hpairs) ?_
  rintro ⟨name, value⟩ ⟨name', value'⟩ hentry
  simp only [Entry.mk.injEq]
  exact ⟨hentry.name.eq hpairs, hentry.value.eq hpairs⟩

/-- Nodes that are alike are the same, if so is what they were made with. -/
theorem NodeCell.Alike.eq {cell cell' : NodeCell} (hcell : cell.Alike bond cell')
    (hchildren : cell.ownChildren = cell'.ownChildren) (hnotes : cell.ownNotes = cell'.ownNotes) :
    cell = cell' := by
  cases cell
  cases cell'
  simp only [NodeCell.mk.injEq]
  exact ⟨hcell.label.eq hpairs, hcell.val.eq hpairs, hcell.position.eq hpairs,
    hcell.children.eq hpairs, hcell.parent.eq hpairs, hcell.notes.eq hpairs, hchildren, hnotes,
    hcell.extras.eq hpairs⟩

/-- Hosts that are alike are the same, if so is what they were made with. -/
theorem Host.Alike.eq {host host' : Host} (hhost : host.Alike bond host')
    (happart : bond.apart ≠ none) (hoptions : host.ownOptions = host'.ownOptions)
    (hrules : host.ownRules = host'.ownRules) (hpatterns : host.ownPatterns = host'.ownPatterns) :
    host = host' := by
  cases host
  cases host'
  simp only [Host.mk.injEq]
  exact ⟨hhost.hostClass, hhost.options.eq fun halike => halike.eq hpairs,
    hhost.nested.eq fun halike => halike.eq hpairs, hhost.rules.eq fun halike => halike.eq hpairs,
    hhost.patterns.eq fun hheld => (hheld.alike happart).eq hpairs,
    hhost.input.eq fun halike => halike.eq hpairs, hhost.cursor,
    hhost.root.eq fun halike => halike.eq hpairs, hhost.stack.eq fun halike => halike.eq hpairs,
    hoptions, hrules, hpatterns, hhost.members.eq hpairs⟩

end Eq

theorem eq_of_getD {α : Type} {values values' : Array α} (standard : α)
    (hsize : values'.size = values.size)
    (hget : ∀ place, values.getD place standard = values'.getD place standard) :
    values = values' := by
  refine Array.ext hsize.symm fun place hplace hplace' => ?_
  have hsame := hget place
  rwa [Array.getD_eq_getD_getElem?, Array.getD_eq_getD_getElem?, Array.getElem?_eq_getElem hplace,
    Array.getElem?_eq_getElem hplace'] at hsame

namespace World.Alike

variable {world world' : World} {id : HostId} {apart : Apart}
  (hworld : world.Alike (.beside id apart) world')

include hworld

end World.Alike

/-! ## Runs that do not know of a host -/

theorem Bond.beside_le (id : HostId) (apart apart' : Apart) :
    (Bond.beside id apart).Le (.beside id apart') where
  pairs := fun hpairs => hpairs
  parser := rfl
  apart := ⟨fun hnone => absurd hnone (Option.some_ne_none _),
    fun hnone => absurd hnone (Option.some_ne_none _)⟩

theorem Bond.ne_of_sees {id place : HostId} {apart : Apart}
    (hsight : (Bond.beside id apart).Sees place) : place ≠ id := hsight.ne_parser rfl

section Unaware

variable {world : World} {id : HostId}

theorem World.host_withHost (host : Host) (notices : Array Notice) {place : HostId}
    (hplace : place ≠ id) : (world.withHost id host notices).host place = world.host place := by
  change (world.changeHost id fun _ => host).host place = world.host place
  rw [World.host_changeHost, if_neg fun hsame => hplace hsame.1.symm]

theorem World.host_withHost_self (host : Host) (notices : Array Notice)
    (hpresent : id < world.hosts.size) : (world.withHost id host notices).host id = host := by
  change (world.changeHost id fun _ => host).host id = host
  rw [World.host_changeHost, if_pos ⟨rfl, hpresent⟩]

theorem World.record_withHost {apart : Apart} {ref : RecordRef}
    (hsight : (Bond.beside id apart).Shows ref) (host : Host) (notices : Array Notice) :
    (world.withHost id host notices).record ref = world.record ref := by
  cases ref with
  | notes | made => rfl
  | options place | rules place =>
      simp only [World.record, World.host_withHost host notices (Bond.ne_of_sees hsight)]
  | patterns place =>
      have hplace : place ≠ id := hsight
      simp only [World.record, World.host_withHost host notices hplace]

theorem World.Unaware.present (hunaware : world.Unaware id) : id < world.hosts.size :=
  (hunaware.choose_spec.apart _ rfl).present

/-- In the place of what a world does not know of there can be anything. -/
theorem World.Unaware.withHosts (hunaware : world.Unaware id) (one other : Host)
    (notices notices' : Array Notice) :
    (world.withHost id one notices).Alike (.beside id ⟨one, other, notices, notices'⟩)
      (world.withHost id other notices') := by
  have hpresent := hunaware.present
  obtain ⟨apart, hworld⟩ := hunaware
  have hle := Bond.beside_le id apart ⟨one, other, notices, notices'⟩
  exact
    { sizes := ⟨rfl, by simp [World.withHost, World.changeHost], rfl, rfl, rfl⟩
      cell := fun node => (hworld.cell node).mono hle
      host := fun place hsight => by
        have hplace := Bond.ne_of_sees hsight
        rw [World.host_withHost one notices hplace, World.host_withHost other notices' hplace]
        exact (hworld.host place (hle.sees_iff.mpr hsight)).mono hle
      items := fun ref => by
        have hitems := (hworld.items ref).mono hle
        cases ref <;> exact hitems
      record := fun ref hsight => by
        rw [World.record_withHost hsight one, World.record_withHost hsight other]
        exact (hworld.record ref (hle.shows_iff.mpr hsight)).mono hle
      extras := List.Forall₂.imp (fun _ _ hentry => ⟨hentry.1.mono hle, hentry.2.mono hle⟩)
        hworld.extras
      globals := hworld.globals.mono hle
      frame := hworld.frame.mono hle
      traces := rfl
      apart := by
        rintro _ ⟨rfl⟩
        refine ⟨?_, World.host_withHost_self one notices hpresent,
          World.host_withHost_self other notices' hpresent⟩
        rw [World.withHost, World.changeHost, Array.size_modify]
        exact hpresent
      notices := by
        rintro _ ⟨rfl⟩
        exact ⟨#[], Array.append_empty.symm, Array.append_empty.symm⟩
      serial := rfl
      fits := fun _ _ => rfl }

theorem World.Unaware.withHost (hunaware : world.Unaware id) (other : Host)
    (notices : Array Notice) : (world.withHost id other notices).Unaware id :=
  ⟨_, hunaware.withHosts other other notices notices⟩

end Unaware

end Rulebook
