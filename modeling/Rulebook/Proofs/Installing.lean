import Rulebook.Proofs.Facade

/-!
# Installing `capture` in any order

A plugin is called on a host, and may be told which kind of host to expect. It is refused unless the
host is of one kind and that is the one expected, and then nothing has happened. Otherwise the host
has the method `capture` afterwards, and so has the parser in it if it is a facade; one line is
reported, and nothing else has changed but how far serial numbers are counted.

A method that is installed over an old one takes its place, so many calls change no more than those
of them that were not refused, and of these the last one on each host.
-/

namespace Rulebook

open Run

/-! ## Calls of plugins -/

/-- A call of a plugin. -/
structure InstallCall where
  /-- The serial number of the plugin. -/
  plugin : Nat
  host : Value
  /-- The kind of host that is expected, if it is given. -/
  kind : Option HostKind

namespace InstallCall

/-- The kind of host that is expected, or null. -/
def expected (call : InstallCall) : Value := (call.kind.map Value.kind).getD .null

/-- Makes a call of a plugin. A kind that is not given is left out. -/
def make (call : InstallCall) (kernel : Kernel) : Run Value :=
  kernel.call (.plugin call.plugin) (call.host :: (call.kind.map Value.kind).toList)

end InstallCall

/-- Makes calls of plugins in order, whether those before failed or not, and gives how each of them
ended. -/
def installAll (kernel : Kernel) (calls : List InstallCall) : Run (List (Except Fault Value)) :=
  calls.mapM fun call => Run.observe (call.make kernel)

namespace World

/-- A call suits a host of a kind: no other kind applies to it, and no other is expected. -/
def Suits (world : World) (call : InstallCall) (kind : HostKind) : Prop :=
  world.kindsOf call.host = [kind] ∧ ∀ given ∈ call.kind, given = kind

/-- A host that is a facade and nothing else, and what it has for a parser. -/
structure Nests (world : World) (facade parser : HostId) : Prop where
  facadeKind : world.kindsOf (.host facade) = [.facade]
  nested : (world.host facade).attribute? "parser" = some (.host parser)

/-- Whom a call concerns: the host that it is made for, and the parser in that one if it is a
facade. -/
def Concerns (world : World) (call : InstallCall) (id : HostId) : Prop :=
  call.host = .host id ∨ ∃ facade, call.host = .host facade ∧ world.Nests facade id

/-- A host that nothing was given in the place of its method `define`. -/
structure Defines (world : World) (id : HostId) : Prop where
  present : id < world.hosts.size
  free : (world.host id).attribute? "define" = none

/-- What is asked of something that a plugin is called on. If it is a host of one kind, nothing
stands before its `define`; and a facade has a parser in it, of which the same is true. Nothing is
asked of anything else. -/
structure Installable (world : World) (host : Value) : Prop where
  defines : ∀ id kind, host = .host id → world.kindsOf host = [kind] → world.Defines id
  nested : ∀ id, host = .host id → world.kindsOf host = [.facade] →
    ∃ parser, world.Nests id parser ∧ (world.host parser).hostClass.isA .parser = true ∧
      world.Defines parser

end World

/-! ## The method that is installed -/

/-- What captures for hosts of a class: a parser registers rules, and a facade hands them on. -/
def HostClass.capturer (hostClass : HostClass) : Value :=
  if hostClass.isA .parser then .captureRule else .forward

/-- A host with `capture` installed on it, under a serial number. -/
def Host.capturing (host : Host) (id : HostId) (serial : Nat) : Host :=
  host.setAttribute "capture" (.bound serial id host.hostClass.capturer)

theorem HostClass.isCallable_capturer (hostClass : HostClass) :
    hostClass.capturer.isCallable = true := by
  cases hostClass <;> rfl

/-- Every host of a kind has a method `define`, which makes a callable a member. -/
theorem HostClass.define_run {hostClass : HostClass} {kind : HostKind}
    (hkind : hostClass.isA kind = true) :
    ∃ method, hostClass.method? "define" = some method ∧ ∀ kernel id name callable,
      method.run kernel id (.of [name, callable]) = defineMember id name callable := by
  cases hostClass with
  | parser | subParser | parserFirst =>
      refine ⟨.parser .define, rfl, fun kernel id name callable => ?_⟩
      rw [HostMethod.run, Args.bind_of_length rfl, pure_bind]
      rfl
  | facade | subFacade | facadeFirst =>
      refine ⟨.facade .define, rfl, fun kernel id name callable => ?_⟩
      rw [HostMethod.run, Args.bind_of_length rfl, pure_bind]
      rfl
  | thing => cases kind <;> cases hkind

section Table

variable {κ α : Type} [DecidableEq κ] (key : κ) (first second : α)

theorem Table.insertEntry_insertEntry (entries : List (κ × α)) :
    insertEntry key second (insertEntry key first entries) = insertEntry key second entries := by
  induction entries with
  | nil => exact if_pos rfl
  | cons head rest ih =>
      rw [insertEntry, insertEntry]
      split
      next => rw [insertEntry, if_pos rfl]
      next hother => rw [insertEntry, if_neg hother, ih]

/-- Of two entries under one key the second one counts. -/
theorem Table.insert_insert (table : Table κ α) :
    (table.insert key first).insert key second = table.insert key second :=
  congrArg Table.mk (insertEntry_insertEntry key first second table.entries)

end Table

namespace Host

variable (host : Host) (id : HostId) (serial : Nat)

/-- The method is a member like others. -/
theorem capturing_eq :
    host.capturing id serial =
      { host with
        members := host.members.insert "capture" (.bound serial id host.hostClass.capturer) } :=
  rfl

@[simp] theorem hostClass_capturing : (host.capturing id serial).hostClass = host.hostClass := rfl

/-- Of two installs the second one counts. -/
theorem capturing_capturing (again : Nat) :
    (host.capturing id serial).capturing id again = host.capturing id again := by
  simp only [capturing_eq, Table.insert_insert]

theorem attribute?_capturing :
    (host.capturing id serial).attribute? "capture" =
      some (.bound serial id host.hostClass.capturer) :=
  (Table.get?_insert _ _ _ _).trans (if_pos rfl)

theorem parser_capturing :
    (host.capturing id serial).attribute? "parser" = host.attribute? "parser" := rfl

theorem define_capturing :
    (host.capturing id serial).attribute? "define" = host.attribute? "define" :=
  (Table.get?_insert _ _ _ _).trans (if_neg (by decide))

end Host

/-! ## What installing changes -/

namespace World

/-- Some hosts got the method `capture`, and some lines were reported. Nothing else has changed but
how far serial numbers are counted. -/
structure Gains (world after : World) (chosen : HostId → Prop) (noted : Array Notice) : Prop where
  gained : ∀ id, chosen id → ∃ serial, after.host id = (world.host id).capturing id serial
  kept : ∀ id, ¬chosen id → after.host id = world.host id
  size : after.hosts.size = world.hosts.size
  rest : after = { world with
    hosts := after.hosts, notices := world.notices ++ noted, serial := after.serial }

variable {world middle after : World} {chosen others : HostId → Prop} {noted more : Array Notice}

namespace Gains

theorem refl (world : World) : world.Gains world (fun _ => False) #[] where
  gained _ hchosen := hchosen.elim
  kept _ _ := rfl
  size := rfl
  rest := by rw [Array.append_empty]

theorem congr (hgains : world.Gains after chosen noted) (hsame : ∀ id, chosen id ↔ others id) :
    world.Gains after others noted where
  gained id hother := hgains.gained id ((hsame id).mpr hother)
  kept id hother := hgains.kept id fun hchosen => hother ((hsame id).mp hchosen)
  size := hgains.size
  rest := hgains.rest

/-- Every host is as it was, or has the method besides. -/
theorem host (hgains : world.Gains after chosen noted) (id : HostId) :
    after.host id = world.host id ∨
      ∃ serial, after.host id = (world.host id).capturing id serial := by
  by_cases hchosen : chosen id
  · exact .inr (hgains.gained id hchosen)
  · exact .inl (hgains.kept id hchosen)

/-- What the method does not matter for is as it was. -/
theorem reads {α : Type} (hgains : world.Gains after chosen noted) (read : Host → α)
    (hread : ∀ host id serial, read (Host.capturing host id serial) = read host) (id : HostId) :
    read (after.host id) = read (world.host id) := by
  obtain hkept | ⟨serial, hgained⟩ := hgains.host id
  · rw [hkept]
  · rw [hgained, hread]

theorem hostClass (hgains : world.Gains after chosen noted) (id : HostId) :
    (after.host id).hostClass = (world.host id).hostClass :=
  hgains.reads Host.hostClass Host.hostClass_capturing id

theorem parser (hgains : world.Gains after chosen noted) (id : HostId) :
    (after.host id).attribute? "parser" = (world.host id).attribute? "parser" :=
  hgains.reads (Host.attribute? · "parser") Host.parser_capturing id

theorem define (hgains : world.Gains after chosen noted) (id : HostId) :
    (after.host id).attribute? "define" = (world.host id).attribute? "define" :=
  hgains.reads (Host.attribute? · "define") Host.define_capturing id

theorem trans (hfirst : world.Gains middle chosen noted)
    (hsecond : middle.Gains after others more) :
    world.Gains after (fun id => chosen id ∨ others id) (noted ++ more) where
  gained id hany := by
    by_cases hother : others id
    · obtain ⟨again, hagain⟩ := hsecond.gained id hother
      obtain hkept | ⟨serial, hgained⟩ := hfirst.host id
      · exact ⟨again, by rw [hagain, hkept]⟩
      · exact ⟨again, by rw [hagain, hgained, Host.capturing_capturing]⟩
    · obtain ⟨serial, hgained⟩ := hfirst.gained id (hany.resolve_right hother)
      exact ⟨serial, by rw [hsecond.kept id hother, hgained]⟩
  kept id hnone := by
    rw [hsecond.kept id fun hother => hnone (.inr hother),
      hfirst.kept id fun hchosen => hnone (.inl hchosen)]
  size := hsecond.size.trans hfirst.size
  rest := by
    rw [hsecond.rest, hfirst.rest]
    simp only [Array.append_assoc]

theorem kindsOf (hgains : world.Gains after chosen noted) (host : Value) :
    after.kindsOf host = world.kindsOf host := by
  cases host with
  | host id => simp only [World.kindsOf, hgains.hostClass]
  | _ => rfl

theorem nests_iff (hgains : world.Gains after chosen noted) (facade parser : HostId) :
    after.Nests facade parser ↔ world.Nests facade parser := by
  have hkind := hgains.kindsOf (.host facade)
  have hparser := hgains.parser facade
  exact ⟨fun hnests => ⟨hkind ▸ hnests.facadeKind, hparser ▸ hnests.nested⟩,
    fun hnests => ⟨hkind.trans hnests.facadeKind, hparser.trans hnests.nested⟩⟩

theorem concerns_iff (hgains : world.Gains after chosen noted) (call : InstallCall) (id : HostId) :
    after.Concerns call id ↔ world.Concerns call id := by
  simp only [Concerns, hgains.nests_iff]

theorem defines (hgains : world.Gains after chosen noted) {id : HostId}
    (hdefines : world.Defines id) : after.Defines id where
  present := hgains.size ▸ hdefines.present
  free := (hgains.define id).trans hdefines.free

theorem installable (hgains : world.Gains after chosen noted) {host : Value}
    (hinstallable : world.Installable host) : after.Installable host where
  defines id kind hhost hkind :=
    hgains.defines (hinstallable.defines id kind hhost ((hgains.kindsOf host).symm.trans hkind))
  nested id hhost hkind := by
    obtain ⟨parser, hnests, hclass, hdefines⟩ :=
      hinstallable.nested id hhost ((hgains.kindsOf host).symm.trans hkind)
    exact ⟨parser, (hgains.nests_iff id parser).mpr hnests, (hgains.hostClass parser) ▸ hclass,
      hgains.defines hdefines⟩

end Gains

/-- The world with `capture` installed on a host. Looking up `define` takes a serial number, and
the method takes another one. -/
def equip (world : World) (id : HostId) : World :=
  (world.changeHost id fun host => host.capturing id (world.serial + 1)).withSerial
    (world.serial + 2)

/-- The world with a line reported. -/
def note (world : World) (notice : Notice) : World :=
  { world with notices := world.notices.push notice }

theorem gains_equip {id : HostId} (hpresent : id < world.hosts.size) :
    world.Gains (world.equip id) (fun other => other = id) #[] where
  gained other hsame := by
    subst hsame
    exact ⟨world.serial + 1, (world.host_changeHost other other _).trans (if_pos ⟨rfl, hpresent⟩)⟩
  kept other hother :=
    (world.host_changeHost id other _).trans (if_neg fun hboth => hother hboth.1.symm)
  size := Array.size_modify
  rest := by rw [Array.append_empty]; rfl

theorem gains_note (notice : Notice) :
    world.Gains (world.note notice) (fun _ => False) #[notice] where
  gained _ hchosen := hchosen.elim
  kept _ _ := rfl
  size := rfl
  rest := by rw [note, Array.push_eq_append]

end World

/-! ## One call -/

/-- How a call ends, and the world it leaves behind. -/
inductive World.Settles (world : World) (call : InstallCall) : Except Fault Value → World → Prop
  /-- It suits no kind of host. It is refused as badly configured, and nothing has happened. -/
  | refused {fault : Fault} (unsuited : ∀ kind, ¬world.Suits call kind)
      (configuration : fault.className = "ConfigurationError") :
      Settles world call (.error fault) world
  /-- It suits a kind of host. Whom it concerns has got the method, and a line is reported. -/
  | installed {kind : HostKind} {after : World} (suits : world.Suits call kind)
      (gains : world.Gains after (world.Concerns call) #[.installed kind]) :
      Settles world call (.ok .null) after

section Call

variable {world : World} {call : InstallCall} {id : HostId} {kind : HostKind}

theorem resolveKind_suited (hsuits : world.Suits call kind) :
    (resolveKind call.host call.expected).outcome world = (.ok kind, world) := by
  obtain ⟨hkinds, hgiven⟩ := hsuits
  refine (outcome_bind_ok (outcome_get world)).trans ?_
  rw [hkinds, InstallCall.expected]
  cases hcall : call.kind with
  | none => rfl
  | some given =>
      obtain rfl := hgiven given hcall
      simp only [Option.map_some, Option.getD_some, if_true]
      rfl

theorem resolveKind_unsuited (hunsuited : ∀ kind, ¬world.Suits call kind) :
    ∃ fault, fault.className = "ConfigurationError" ∧
      (resolveKind call.host call.expected).outcome world = (.error fault, world) := by
  cases hkinds : world.kindsOf call.host with
  | nil =>
      refine ⟨.noHostKind, rfl, (outcome_bind_ok (outcome_get world)).trans ?_⟩
      rw [hkinds]
      rfl
  | cons kind rest =>
  cases rest with
  | cons =>
      refine ⟨.bothHostKinds, rfl, (outcome_bind_ok (outcome_get world)).trans ?_⟩
      rw [hkinds]
      rfl
  | nil =>
  cases hcall : call.kind with
  | none => exact absurd ⟨hkinds, by rw [hcall]; nofun⟩ (hunsuited kind)
  | some other =>
      have hother : other ≠ kind := by
        rintro rfl
        refine hunsuited other ⟨hkinds, fun given hgiven => ?_⟩
        exact (Option.some.inj (hcall.symm.trans hgiven)).symm
      refine ⟨.hostKindMismatch other.word kind.word, rfl, ?_⟩
      refine (outcome_bind_ok (outcome_get world)).trans ?_
      rw [hkinds, InstallCall.expected, hcall]
      exact congrArg (fun run : Run HostKind => run.outcome world) (if_neg hother)

variable (rounds depth : Nat)

theorem defineCapture_outcome (hdefines : world.Defines id)
    (hkind : (world.host id).hostClass.isA kind = true) :
    ((Kernel.ofDepth rounds (depth + 1)).sendHost id "define"
        [.text "capture", (world.host id).hostClass.capturer]).outcome world =
      (.ok (.host id), world.equip id) := by
  obtain ⟨method, hmethod, hrun⟩ := HostClass.define_run hkind
  refine (invokeMethod_outcome rfl hmethod hdefines.free rounds depth _).trans ?_
  rw [hrun, defineMember, HostClass.isCallable_capturer]
  have hsame : world.changeHost id (fun host => host.setAttribute "capture"
      (.bound (world.serial + 1) id (world.host id).hostClass.capturer)) =
        world.changeHost id fun host => host.capturing id (world.serial + 1) :=
    World.changeHost_congr rfl
  rw [World.equip, ← hsame]
  rfl

/-- A plugin installs on the host that it is given, and expects what it is told to. -/
theorem InstallCall.make_eq (call : InstallCall) :
    call.make (Kernel.ofDepth rounds (depth + 1)) =
      install (Kernel.ofDepth rounds depth) call.host call.expected := by
  obtain ⟨plugin, host, kind⟩ := call
  rw [make, call_eq, callValue]
  cases kind with
  | none =>
      have hbind : (Args.of [host]).bind installParams = pure [host, .null] := rfl
      exact congrArg (· >>= _) hbind
  | some kind =>
      have hbind : (Args.of [host, .kind kind]).bind installParams = pure [host, .kind kind] :=
        Args.bind_of_length rfl
      exact congrArg (· >>= _) hbind

theorem isA_of_kindsOf (hkinds : world.kindsOf (.host id) = [kind]) :
    (world.host id).hostClass.isA kind = true := by
  have hmem : kind ∈ world.kindsOf (.host id) := hkinds ▸ List.mem_singleton_self kind
  exact (List.mem_filter.mp hmem).2

/-- What can be installed on is a host. -/
theorem host_of_kindsOf {host : Value} (hkinds : world.kindsOf host = [kind]) :
    ∃ id, host = .host id := by
  cases host with
  | host id => exact ⟨id, rfl⟩
  | _ => cases hkinds

theorem capturer_eq_captureRule (hparser : (world.host id).hostClass.isA .parser = true) :
    (world.host id).hostClass.capturer = .captureRule := if_pos hparser

theorem World.Nests.facade_only {facade parser : HostId} (hnests : world.Nests facade parser) :
    (world.host facade).hostClass.isA .parser = false := by
  have hkinds := hnests.facadeKind
  rw [World.kindsOf] at hkinds
  cases hclass : (world.host facade).hostClass <;> rw [hclass] at hkinds <;>
    first | rfl | exact absurd hkinds (by decide)

theorem World.Nests.capturer {facade parser : HostId} (hnests : world.Nests facade parser) :
    (world.host facade).hostClass.capturer = .forward := by
  rw [HostClass.capturer, hnests.facade_only]
  rfl

theorem installParser_outcome (hsuits : world.Suits call .parser) (hhost : call.host = .host id)
    (hdefines : world.Defines id) :
    (install (Kernel.ofDepth rounds (depth + 1)) call.host call.expected).outcome world =
      (.ok .null, (world.equip id).note (.installed .parser)) := by
  have hkind := isA_of_kindsOf (hhost ▸ hsuits.1)
  have hdefine := defineCapture_outcome rounds depth hdefines hkind
  rw [capturer_eq_captureRule hkind] at hdefine
  refine (outcome_bind_ok (resolveKind_suited hsuits)).trans ?_
  rw [hhost]
  exact outcome_bind_ok hdefine

theorem installFacade_outcome {parser : HostId} (hsuits : world.Suits call .facade)
    (hhost : call.host = .host id) (hdefines : world.Defines id) (hnests : world.Nests id parser)
    (hparser : (world.host parser).hostClass.isA .parser = true) (hnested : world.Defines parser) :
    (install (Kernel.ofDepth rounds (depth + 1)) call.host call.expected).outcome world =
      (.ok .null, ((world.equip parser).equip id).note (.installed .facade)) := by
  have hgains := World.gains_equip hnested.present
  have hfirst := defineCapture_outcome rounds depth hnested hparser
  rw [capturer_eq_captureRule hparser] at hfirst
  have hsecond := defineCapture_outcome rounds depth (hgains.defines hdefines)
    ((hgains.hostClass id).symm ▸ isA_of_kindsOf hnests.facadeKind)
  rw [((hgains.nests_iff id parser).mpr hnests).capturer] at hsecond
  refine (outcome_bind_ok (resolveKind_suited hsuits)).trans ?_
  rw [hhost]
  refine (outcome_bind_ok (attributeOf_look hnests.nested rfl world.serial)).trans ?_
  refine (outcome_bind_ok hfirst).trans ?_
  exact outcome_bind_ok hsecond

end Call

section Concerns

variable {world : World} {call : InstallCall} {id parser : HostId}

/-- Installing on a parser concerns the parser alone. -/
theorem World.Suits.concerns_iff (hsuits : world.Suits call .parser) (hhost : call.host = .host id)
    (other : HostId) : other = id ↔ world.Concerns call other := by
  constructor
  · rintro rfl
    exact .inl hhost
  · rintro (hother | ⟨facade, hfacade, hnests⟩)
    · exact (Value.host.inj (hhost.symm.trans hother)).symm
    · have hkinds := hsuits.1
      rw [hfacade, hnests.facadeKind] at hkinds
      exact absurd hkinds (by decide)

/-- Installing on a facade concerns the facade and its parser. -/
theorem World.Nests.concerns_iff (hnests : world.Nests id parser) (hhost : call.host = .host id)
    (other : HostId) : other = parser ∨ other = id ↔ world.Concerns call other := by
  constructor
  · rintro (rfl | rfl)
    · exact .inr ⟨id, hhost, hnests⟩
    · exact .inl hhost
  · rintro (hother | ⟨facade, hfacade, hother⟩)
    · exact .inr (Value.host.inj (hhost.symm.trans hother)).symm
    · obtain rfl := Value.host.inj (hhost.symm.trans hfacade)
      exact .inl (Value.host.inj (Option.some.inj (hother.nested.symm.trans hnests.nested)))

end Concerns

/-- A call is refused and nothing has happened, or it suits a host and whom it concerns gets the
method. -/
theorem make_settles {world : World} {call : InstallCall} (rounds depth : Nat)
    (hinstallable : world.Installable call.host) :
    ∃ result after, (call.make (Kernel.ofDepth rounds (depth + 2))).outcome world =
      (result, after) ∧ world.Settles call result after := by
  rw [InstallCall.make_eq]
  by_cases hsuited : ∃ kind, world.Suits call kind
  · obtain ⟨kind, hsuits⟩ := hsuited
    obtain ⟨id, hhost⟩ := host_of_kindsOf hsuits.1
    have hdefines := hinstallable.defines id kind hhost hsuits.1
    refine ⟨.ok .null, ?_⟩
    cases kind with
    | parser =>
        refine ⟨_, installParser_outcome rounds depth hsuits hhost hdefines, .installed hsuits ?_⟩
        have hgains := World.gains_equip hdefines.present
        refine (hgains.trans (World.gains_note _)).congr fun other => ?_
        rw [or_false]
        exact hsuits.concerns_iff hhost other
    | facade =>
        obtain ⟨parser, hnests, hparser, hnested⟩ := hinstallable.nested id hhost hsuits.1
        refine ⟨_, installFacade_outcome rounds depth hsuits hhost hdefines hnests hparser hnested,
          .installed hsuits ?_⟩
        have hfirst := World.gains_equip hnested.present
        have hsecond := World.gains_equip (hfirst.defines hdefines).present
        refine ((hfirst.trans hsecond).trans (World.gains_note _)).congr fun other => ?_
        rw [or_false]
        exact hnests.concerns_iff hhost other
  · have hunsuited : ∀ kind, ¬world.Suits call kind := fun kind hsuits => hsuited ⟨kind, hsuits⟩
    obtain ⟨fault, hfault, hrun⟩ := resolveKind_unsuited hunsuited
    refine ⟨.error fault, world, ?_, .refused hunsuited hfault⟩
    rw [install, outcome_bind, hrun]

/-! ## Many calls -/

/-- How calls end that are made one after another, and the world that the last of them leaves
behind. -/
inductive World.SettleAll :
    World → List InstallCall → List (Except Fault Value) → World → Prop
  | nil {world : World} : SettleAll world [] [] world
  | cons {world middle after : World} {call : InstallCall} {calls : List InstallCall}
      {result : Except Fault Value} {results : List (Except Fault Value)}
      (first : world.Settles call result middle) (rest : middle.SettleAll calls results after) :
      SettleAll world (call :: calls) (result :: results) after

section Runs

variable {world after : World} {call : InstallCall} {calls : List InstallCall}
  {result : Except Fault Value} {results : List (Except Fault Value)}

/-- Whatever comes of a call, some hosts have got the method and nothing else has changed. -/
theorem World.Settles.gains (hsettles : world.Settles call result after) :
    ∃ noted, world.Gains after (fun id => result = .ok .null ∧ world.Concerns call id) noted := by
  cases hsettles with
  | refused _ _ => exact ⟨#[], (World.Gains.refl _).congr fun id => by simp⟩
  | installed _ hgains => exact ⟨_, hgains.congr fun id => by simp⟩

theorem installAll_settles (rounds depth : Nat)
    (hinstallable : ∀ call ∈ calls, world.Installable call.host) :
    ∃ results after, (installAll (Kernel.ofDepth rounds (depth + 2)) calls).outcome world =
      (.ok results, after) ∧ world.SettleAll calls results after := by
  induction calls generalizing world with
  | nil => exact ⟨[], world, rfl, .nil⟩
  | cons call calls ih =>
      obtain ⟨hfirst, hrest⟩ := List.forall_mem_cons.mp hinstallable
      obtain ⟨result, middle, hcall, hsettles⟩ := make_settles rounds depth hfirst
      obtain ⟨noted, hgains⟩ := hsettles.gains
      obtain ⟨results, after, hcalls, hsettleAll⟩ :=
        ih fun call hmem => hgains.installable (hrest call hmem)
      refine ⟨result :: results, after, ?_, .cons hsettles hsettleAll⟩
      rw [installAll, List.mapM_cons]
      refine (outcome_bind_ok (outcome_observe _ world)).trans ?_
      rw [hcall]
      exact outcome_bind_ok hcalls

/-- After all calls, those have the method that a call concerned which was not refused, and nothing
else has changed. -/
theorem World.SettleAll.gains (hsettle : world.SettleAll calls results after) :
    ∃ noted, world.Gains after
      (fun id => ∃ call, (call, .ok .null) ∈ calls.zip results ∧ world.Concerns call id) noted := by
  induction hsettle with
  | nil => exact ⟨#[], (World.Gains.refl _).congr fun id => by simp⟩
  | cons hfirst _ ih =>
      obtain ⟨noted, hgains⟩ := hfirst.gains
      obtain ⟨more, hrest⟩ := ih
      refine ⟨noted ++ more, (hgains.trans hrest).congr fun id => ?_⟩
      simp only [hgains.concerns_iff, List.zip_cons_cons, List.mem_cons, Prod.mk.injEq,
        or_and_right, exists_or, and_assoc, exists_eq_left]
      exact or_congr_left (and_congr_left' eq_comm)

theorem World.Gains.suits_iff {chosen : HostId → Prop} {noted : Array Notice}
    (hgains : world.Gains after chosen noted) (call : InstallCall) (kind : HostKind) :
    after.Suits call kind ↔ world.Suits call kind := by
  rw [World.Suits, World.Suits, hgains.kindsOf]

/-- A call that was not refused suited its host from the start. -/
theorem World.SettleAll.suits (hsettle : world.SettleAll calls results after)
    (hcall : (call, .ok .null) ∈ calls.zip results) : ∃ kind, world.Suits call kind := by
  induction hsettle with
  | nil => cases hcall
  | cons hfirst _ ih =>
      rcases List.mem_cons.mp hcall with hsame | hlater
      · obtain ⟨rfl, rfl⟩ := Prod.mk.inj hsame
        cases hfirst with
        | installed hsuits _ => exact ⟨_, hsuits⟩
      · obtain ⟨noted, hgains⟩ := hfirst.gains
        obtain ⟨kind, hsuits⟩ := ih hlater
        exact ⟨kind, (hgains.suits_iff call kind).mp hsuits⟩

end Runs

end Rulebook
