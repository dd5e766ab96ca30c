import Rulebook.Proofs.Installing
import Rulebook.Proofs.Unequipped

/-!
# Captures after installing

However often `capture` is installed on a host, and whatever plugins are called on besides, a
capture of the host registers a rule on the parser that serves it: on itself if it is a parser, and
on the one in it if it is a facade. Methods that are installed one over the other differ in their
serial numbers, which registering does not look at.
-/

namespace Rulebook

open Run

/-! ## Who registers -/

/-- How many calls a capture makes before it registers a rule, if it is asked of a host on whose
behalf the parser registers. -/
def detourTo (parser id : HostId) : Nat := if id = parser then 1 else 3

namespace World

/-- The parser that registers rules for a host: a parser for itself, and for a facade the one in
it. -/
def Serves (world : World) (parser id : HostId) : Prop :=
  (id = parser ∨ world.Nests id parser) ∧ (world.host parser).hostClass.isA .parser = true

/-- A host has the method `capture` that installing gives it. -/
def HasCapture (world : World) (id : HostId) : Prop :=
  ∃ serial, (world.host id).attribute? "capture" =
    some (.bound serial id (world.host id).hostClass.capturer)

/-- A host and the parser that serves it have the method `capture` that installing gives them. -/
structure Installed (world : World) (parser id : HostId) : Prop where
  serves : world.Serves parser id
  onParser : world.HasCapture parser
  onHost : world.HasCapture id

/-- Nothing has been done to a host that tells on its method `capture`: it is of the same class, and
has the same under the names that matter. -/
structure Leaves (world later : World) (id : HostId) : Prop where
  hostClass : (later.host id).hostClass = (world.host id).hostClass
  parser : (later.host id).attribute? "parser" = (world.host id).attribute? "parser"
  capture : (later.host id).attribute? "capture" = (world.host id).attribute? "capture"

/-- Captures of a host register rules on a parser, with the arguments that they are given, as long
as the methods of the two stay as they are. -/
def CapturesOn (world : World) (parser id : HostId) : Prop :=
  ∀ later : World, world.Leaves later parser → world.Leaves later id → ∀ rounds depth args,
    ((HostCall.capture args).issue (Kernel.ofDepth rounds (depth + detourTo parser id)) id).outcome
        later =
      (registerOn (Kernel.ofDepth rounds depth) parser args).outcome later

end World

section Captures

variable {world later after : World} {parser id : HostId}

theorem World.Leaves.hasCapture (hleaves : world.Leaves later id) (hcapture : world.HasCapture id) :
    later.HasCapture id := by
  obtain ⟨serial, hmember⟩ := hcapture
  exact ⟨serial, by rw [hleaves.capture, hleaves.hostClass, hmember]⟩

theorem World.Leaves.serves (hparser : world.Leaves later parser) (hid : world.Leaves later id)
    (hserves : world.Serves parser id) : later.Serves parser id := by
  obtain ⟨hnests, hclass⟩ := hserves
  refine ⟨hnests.imp_right fun hnests => ⟨?_, hid.parser.trans hnests.nested⟩, ?_⟩
  · rw [World.kindsOf, hid.hostClass]
    exact hnests.facadeKind
  · rw [hparser.hostClass]
    exact hclass

theorem captureOfParser_outcome (hparser : (world.host parser).hostClass.isA .parser = true)
    (hcapture : world.HasCapture parser) (rounds depth : Nat) (args : Args) :
    ((HostCall.capture args).issue (Kernel.ofDepth rounds (depth + 1)) parser).outcome world =
      (registerOn (Kernel.ofDepth rounds depth) parser args).outcome world := by
  obtain ⟨serial, hmember⟩ := hcapture
  rw [capturer_eq_captureRule hparser] at hmember
  exact outcome_bind_ok (attributeOf_look hmember rfl world.serial)

theorem World.Nests.capture_outcome (hnests : world.Nests id parser)
    (hcapture : world.HasCapture id) (rounds depth : Nat) (args : Args) :
    ((HostCall.capture args).issue (Kernel.ofDepth rounds (depth + 2)) id).outcome world =
      ((HostCall.capture args).issue (Kernel.ofDepth rounds depth) parser).outcome world := by
  obtain ⟨serial, hmember⟩ := hcapture
  rw [hnests.capturer] at hmember
  refine (outcome_bind_ok (attributeOf_look hmember rfl world.serial)).trans ?_
  exact outcome_bind_ok (attributeOf_look hnests.nested rfl world.serial)

theorem World.Installed.capture_outcome (hinstalled : world.Installed parser id)
    (rounds depth : Nat) (args : Args) :
    ((HostCall.capture args).issue (Kernel.ofDepth rounds (depth + detourTo parser id)) id).outcome
        world =
      (registerOn (Kernel.ofDepth rounds depth) parser args).outcome world := by
  have hregister :=
    captureOfParser_outcome hinstalled.serves.2 hinstalled.onParser rounds depth args
  by_cases hsame : id = parser
  · subst hsame
    rw [detourTo, if_pos rfl]
    exact hregister
  · have hnests := hinstalled.serves.1.resolve_left hsame
    rw [detourTo, if_neg hsame]
    exact (hnests.capture_outcome hinstalled.onHost rounds (depth + 1) args).trans hregister

theorem World.Installed.leaves (hinstalled : world.Installed parser id)
    (hparser : world.Leaves later parser) (hid : world.Leaves later id) :
    later.Installed parser id where
  serves := hparser.serves hid hinstalled.serves
  onParser := hparser.hasCapture hinstalled.onParser
  onHost := hid.hasCapture hinstalled.onHost

theorem World.Installed.capturesOn (hinstalled : world.Installed parser id) :
    world.CapturesOn parser id := fun _ hparser hid rounds depth args =>
  (hinstalled.leaves hparser hid).capture_outcome rounds depth args

theorem World.Gains.serves {chosen : HostId → Prop} {noted : Array Notice}
    (hgains : world.Gains after chosen noted) (hserves : world.Serves parser id) :
    after.Serves parser id :=
  ⟨hserves.1.imp_right (hgains.nests_iff id parser).mpr, (hgains.hostClass parser) ▸ hserves.2⟩

theorem World.Gains.hasCapture {chosen : HostId → Prop} {noted : Array Notice}
    (hgains : world.Gains after chosen noted) (hchosen : chosen id) : after.HasCapture id := by
  obtain ⟨serial, hhost⟩ := hgains.gained id hchosen
  exact ⟨serial, by rw [hhost, Host.attribute?_capturing, Host.hostClass_capturing]⟩

theorem World.Gains.stillHasCapture {chosen : HostId → Prop} {noted : Array Notice}
    (hgains : world.Gains after chosen noted) (hcapture : world.HasCapture id) :
    after.HasCapture id := by
  by_cases hchosen : chosen id
  · exact hgains.hasCapture hchosen
  · rw [World.HasCapture, hgains.kept id hchosen]
    exact hcapture

/-- Whom a call concerns is served by a parser that it concerns as well. -/
theorem World.Suits.serves {call : InstallCall} {kind : HostKind} (hsuits : world.Suits call kind)
    (hinstallable : world.Installable call.host) (hconcerns : world.Concerns call id) :
    ∃ parser, world.Serves parser id ∧ world.Concerns call parser := by
  rcases hconcerns with hhost | ⟨facade, hhost, hnests⟩
  · cases kind with
    | parser =>
        exact ⟨id, ⟨.inl rfl, isA_of_kindsOf (hhost ▸ hsuits.1)⟩, .inl hhost⟩
    | facade =>
        obtain ⟨parser, hnests, hparser, _⟩ := hinstallable.nested id hhost hsuits.1
        exact ⟨parser, ⟨.inr hnests, hparser⟩, .inr ⟨id, hhost, hnests⟩⟩
  · obtain ⟨parser, hother, hparser, _⟩ :=
      hinstallable.nested facade hhost (hhost ▸ hnests.facadeKind)
    obtain rfl := Value.host.inj (Option.some.inj (hother.nested.symm.trans hnests.nested))
    exact ⟨parser, ⟨.inl rfl, hparser⟩, .inr ⟨facade, hhost, hnests⟩⟩

/-- One parser serves a host. -/
theorem World.Serves.unique {other : HostId} (hserves : world.Serves parser id)
    (hother : world.Serves other id) : parser = other := by
  obtain ⟨rfl | hnests, hparser⟩ := hserves <;> obtain ⟨rfl | hnests', hparser'⟩ := hother
  · rfl
  · rw [hnests'.facade_only] at hparser
    cases hparser
  · rw [hnests.facade_only] at hparser'
    cases hparser'
  · exact Value.host.inj (Option.some.inj (hnests.nested.symm.trans hnests'.nested))

theorem Host.SameMethods.leaves (hsame : (world.host id).SameMethods (later.host id)) :
    world.Leaves later id where
  hostClass := hsame.hostClass
  parser := hsame.nested
  capture := congrArg (fun members : Table String Value => members.get? "capture") hsame.members

/-- Whom a call concerned that was not refused has the method afterwards, and so has the parser that
serves it. -/
theorem World.Gains.installed {chosen : HostId → Prop} {noted : Array Notice}
    (hgains : world.Gains after chosen noted) (hserves : world.Serves parser id)
    (hparser : chosen parser) (hid : chosen id) : after.Installed parser id where
  serves := hgains.serves hserves
  onParser := hgains.hasCapture hparser
  onHost := hgains.hasCapture hid

/-- Installing on other hosts does not take the method away. -/
theorem World.Gains.stillInstalled {chosen : HostId → Prop} {noted : Array Notice}
    (hgains : world.Gains after chosen noted) (hinstalled : world.Installed parser id) :
    after.Installed parser id where
  serves := hgains.serves hinstalled.serves
  onParser := hgains.stillHasCapture hinstalled.onParser
  onHost := hgains.stillHasCapture hinstalled.onHost

theorem Host.set_capturing (host : Host) (id : HostId) (serial : Nat) :
    (host.capturing id serial).members.get? "set" = host.members.get? "set" :=
  (Table.get?_insert _ _ _ _).trans (if_neg (by decide))

theorem World.Gains.setsItself {chosen : HostId → Prop} {noted : Array Notice}
    (hgains : world.Gains after chosen noted) (hsets : world.SetsItself parser) :
    after.SetsItself parser where
  isParser := (hgains.hostClass parser) ▸ hsets.isParser
  free := (hgains.reads (Host.members · |>.get? "set") Host.set_capturing parser).trans hsets.free

theorem Host.unequipped_capturing (host : Host) (id : HostId) (serial : Nat) :
    (host.capturing id serial).unequipped = host.unequipped := by
  rw [capturing_eq, unequipped, Table.erase_insert]
  rfl

/-- Without the method, hosts are what they were before it was installed. -/
theorem World.Gains.unequipped {chosen : HostId → Prop} {noted : Array Notice}
    (hgains : world.Gains after chosen noted) (notices : Array Notice) :
    after.unequipped notices = (world.unequipped notices).withSerial after.serial := by
  have hhosts : after.hosts.map Host.unequipped = world.hosts.map Host.unequipped := by
    refine eq_of_getD default (by simp [hgains.size]) fun place => ?_
    change (after.unequipped notices).host place = (world.unequipped notices).host place
    rw [World.host_unequipped, World.host_unequipped]
    exact hgains.reads Host.unequipped Host.unequipped_capturing place
  rw [World.unequipped, hhosts, hgains.rest]
  rfl

end Captures

/-! ## The same answers -/

/-- Asks a host to capture with arguments in order, whether those before were refused or not, and
gives how each of the captures ended. -/
def captureAll (kernel : Kernel) (id : HostId) (requests : List Args) :
    Run (List (Except Fault Value)) :=
  requests.mapM fun args => Run.observe ((HostCall.capture args).issue kernel id)

section Answers

variable {world : World} {parser id : HostId}

/-- Whatever a host is asked to capture, it answers the same in two worlds and reports the same, and
the worlds that it leaves differ in nothing but whose method `capture` has which serial number, and
in what had been reported before. -/
def World.AnswersAs (one other : World) (parser id : HostId) : Prop :=
  ∀ rounds depth requests, ∃ answers one' other' added,
    (captureAll (Kernel.ofDepth rounds (depth + detourTo parser id)) id requests).outcome one =
      (.ok answers, one') ∧
    (captureAll (Kernel.ofDepth rounds (depth + detourTo parser id)) id requests).outcome other =
      (.ok answers, other') ∧
    one'.notices = one.notices ++ added ∧ other'.notices = other.notices ++ added ∧
    one'.unequipped #[] = other'.unequipped #[]

/-- After a call that was not refused, whom it concerned has the method, and so has the parser that
serves it. -/
theorem World.Settles.equipped {call : InstallCall} {after : World}
    (hsettles : world.Settles call (.ok .null) after) (hinstallable : world.Installable call.host)
    (hconcerns : world.Concerns call id) (hserves : world.Serves parser id) :
    after.Installed parser id := by
  cases hsettles with
  | installed hsuits hgains =>
      obtain ⟨other, hother, hparser⟩ := hsuits.serves hinstallable hconcerns
      obtain rfl := hother.unique hserves
      exact hgains.installed hserves hparser hconcerns

theorem World.Installed.captureAll_cons (hinstalled : world.Installed parser id)
    (rounds depth : Nat) (args : Args) {requests : List Args} {last : World}
    {answers : List (Except Fault Value)}
    (hrest : (captureAll (Kernel.ofDepth rounds (depth + detourTo parser id)) id requests).outcome
        ((registerOn (Kernel.ofDepth rounds depth) parser args).outcome world).2 =
      (.ok answers, last)) :
    (captureAll (Kernel.ofDepth rounds (depth + detourTo parser id)) id
        (args :: requests)).outcome world =
      (.ok (((registerOn (Kernel.ofDepth rounds depth) parser args).outcome world).1 :: answers),
        last) := by
  rw [captureAll, List.mapM_cons]
  refine (outcome_bind_ok (outcome_observe _ world)).trans ?_
  rw [hinstalled.capture_outcome]
  exact outcome_bind_ok hrest

/-- Registering asks for nothing that tells two worlds apart which differ in the method alone, so
the answers are the same one after another. -/
theorem World.Installed.answersAs {one other : World} (hone : one.Installed parser id)
    (hother : other.Installed parser id) (hsets : one.SetsItself parser)
    (hsets' : other.SetsItself parser) (hsame : one.unequipped #[] = other.unequipped #[]) :
    one.AnswersAs other parser id := by
  intro rounds depth requests
  induction requests generalizing one other with
  | nil =>
      exact ⟨[], one, other, #[], rfl, rfl, Array.append_empty.symm, Array.append_empty.symm, hsame⟩
  | cons args requests ih =>
      obtain ⟨hmethods, added, hadded, hblind⟩ :=
        disregards_registerOn rounds depth parser args one hsets
      obtain ⟨hmethods', added', hadded', hblind'⟩ :=
        disregards_registerOn rounds depth parser args other hsets'
      have hboth := (hblind #[]).symm.trans ((congrArg _ hsame).trans (hblind' #[]))
      have hresult := congrArg Prod.fst hboth
      have hworld := congrArg Prod.snd hboth
      have hnotices : #[] ++ added = #[] ++ added' := congrArg World.notices hworld
      obtain rfl : added = added' := by simpa using hnotices
      obtain ⟨answers, last, last', more, hrun, hrun', hmore, hmore', hlast⟩ := ih
        (hone.leaves (hmethods parser).leaves (hmethods id).leaves)
        (hother.leaves (hmethods' parser).leaves (hmethods' id).leaves)
        (hsets.congr (hmethods parser)) (hsets'.congr (hmethods' parser))
        (congrArg (fun world : World => { world with notices := #[] }) hworld)
      have hfirst := hone.captureAll_cons rounds depth args hrun
      have hsecond := hother.captureAll_cons rounds depth args hrun'
      rw [← hresult] at hsecond
      refine ⟨_, last, last', added ++ more, hfirst, hsecond, ?_, ?_, hlast⟩
      · rw [hmore, hadded, Array.append_assoc]
      · rw [hmore', hadded', Array.append_assoc]

end Answers

/-! ## Atomic and once for all -/

/-- Installing is atomic, and once for all. Let plugins be called one after another, on parsers,
facades, hosts of both kinds and things that are no hosts, with kinds that are expected or none,
where a host of one kind has its own `define`, and a facade a parser with its own `define` in it.

Each call is refused as badly configured, and nothing has happened, if it suits no kind of host; and
if it suits one, then the host has the method `capture` afterwards, and so has the parser in it if
it is a facade, one line is reported, and nothing else has changed.

If a call was not refused that concerned a host, or the host had the method already, then whatever
the other calls were, captures of the host come to registering rules on the parser that serves it.
So they do after a single call; and if the parser has its own `set`, they are answered one after
another as they are after a single call, with objects made from then on counted alike. -/
theorem installs_settle {world : World} {calls : List InstallCall}
    (hinstallable : ∀ call ∈ calls, world.Installable call.host) (rounds depth : Nat) :
    ∃ results after,
      (installAll (Kernel.ofDepth rounds (depth + 2)) calls).outcome world = (.ok results, after) ∧
      world.SettleAll calls results after ∧
      ∀ id, ((∃ call, (call, .ok .null) ∈ calls.zip results ∧ world.Concerns call id) ∨
          ∃ parser, world.Installed parser id) →
        ∃ parser, world.Serves parser id ∧ after.Installed parser id ∧
          after.CapturesOn parser id ∧
          ∀ single once, world.Installable single.host → world.Concerns single id →
            (single.make (Kernel.ofDepth rounds (depth + 2))).outcome world = (.ok .null, once) →
            once.CapturesOn parser id ∧
              (world.SetsItself parser →
                after.AnswersAs (once.withSerial after.serial) parser id) := by
  obtain ⟨results, after, hrun, hsettle⟩ := installAll_settles rounds depth hinstallable
  obtain ⟨noted, hgains⟩ := hsettle.gains
  refine ⟨results, after, hrun, hsettle, fun id hid => ?_⟩
  obtain ⟨parser, hserves, hafter⟩ :
      ∃ parser, world.Serves parser id ∧ after.Installed parser id := by
    rcases hid with ⟨call, hcall, hconcerns⟩ | ⟨parser, hinstalled⟩
    · obtain ⟨kind, hsuits⟩ := hsettle.suits hcall
      obtain ⟨parser, hserves, hparser⟩ :=
        hsuits.serves (hinstallable call (List.of_mem_zip hcall).1) hconcerns
      exact ⟨parser, hserves,
        hgains.installed hserves ⟨call, hcall, hparser⟩ ⟨call, hcall, hconcerns⟩⟩
    · exact ⟨parser, hinstalled.serves, hgains.stillInstalled hinstalled⟩
  refine ⟨parser, hserves, hafter, hafter.capturesOn, fun single once hsingle honce hmake => ?_⟩
  obtain ⟨result, middle, hsame, hsettles⟩ := make_settles rounds depth hsingle
  obtain ⟨rfl, rfl⟩ := Prod.mk.inj (hsame.symm.trans hmake)
  have hinstalled := hsettles.equipped hsingle honce hserves
  refine ⟨hinstalled.capturesOn, fun hsets => ?_⟩
  obtain ⟨notedOnce, hgainsOnce⟩ := hsettles.gains
  have hplain : after.unequipped #[] = (middle.withSerial after.serial).unequipped #[] := calc
    after.unequipped #[]
    _ = (world.unequipped #[]).withSerial after.serial := hgains.unequipped #[]
    _ = (middle.unequipped #[]).withSerial after.serial := by
      rw [hgainsOnce.unequipped]
      rfl
  exact hafter.answersAs (hinstalled.leaves ⟨rfl, rfl, rfl⟩ ⟨rfl, rfl, rfl⟩)
    (hgains.setsItself hsets) ((hgainsOnce.setsItself hsets).congr ⟨rfl, rfl, rfl⟩) hplain

section Owns

variable {world : World} {facade parser : HostId}

theorem World.Owns.nests (howns : world.Owns facade parser) : world.Nests facade parser where
  facadeKind := howns.facadeKind
  nested := howns.nested

theorem World.Owns.serves (howns : world.Owns facade parser) : world.Serves parser facade :=
  ⟨.inr howns.nests, isA_of_kindsOf howns.parserKind⟩

theorem World.Owns.installableFacade (howns : world.Owns facade parser)
    (hpresent : facade < world.hosts.size) : world.Installable (.host facade) where
  defines id kind hhost _ := by
    obtain rfl := Value.host.inj hhost
    exact ⟨hpresent, howns.define⟩
  nested id hhost _ := by
    obtain rfl := Value.host.inj hhost
    exact ⟨parser, howns.nests, howns.serves.2, howns.present, howns.parserDefine⟩

theorem World.Owns.installableParser (howns : world.Owns facade parser) :
    world.Installable (.host parser) where
  defines id kind hhost _ := by
    obtain rfl := Value.host.inj hhost
    exact ⟨howns.present, howns.parserDefine⟩
  nested id _ hkinds := absurd (howns.parserKind.symm.trans hkinds) (by decide)

theorem World.installable_text (text : String) : world.Installable (.text text) where
  defines _ _ hhost := nomatch hhost
  nested _ hhost := nomatch hhost

end Owns

/-- Plugins called on a facade, on its parser, and on what is no host. -/
def mixedInstalls : List InstallCall :=
  [⟨0, .host 0, some .parser⟩, ⟨0, .host 1, none⟩, ⟨1, .text "f", none⟩,
    ⟨1, .host 0, some .facade⟩, ⟨0, .host 1, some .parser⟩]

theorem installs_settle_mixed :
    (∀ call ∈ mixedInstalls, World.start.addFacade.Installable call.host) ∧
    ∃ after once,
      (installAll (Kernel.ofDepth 9 32) mixedInstalls).outcome World.start.addFacade =
        (.ok [.error (.hostKindMismatch "parser" "facade"), .ok .null, .error .noHostKind,
          .ok .null, .ok .null], after) ∧
      ((InstallCall.mk 2 (.host 0) none).make (Kernel.ofDepth 9 32)).outcome
        World.start.addFacade = (.ok .null, once) ∧
      after.CapturesOn 1 0 ∧ once.CapturesOn 1 0 ∧
      after.AnswersAs (once.withSerial after.serial) 1 0 := by
  have howns : World.start.addFacade.Owns 0 1 := World.start.addFacade_owns
  have hpresent : 0 < World.start.addFacade.hosts.size := Nat.zero_lt_of_lt howns.present
  have hfacade := howns.installableFacade hpresent
  have hparser := howns.installableParser
  have hinstallable : ∀ call ∈ mixedInstalls, World.start.addFacade.Installable call.host := by
    simp only [mixedInstalls, List.forall_mem_cons]
    exact ⟨hfacade, hparser, World.installable_text _, hfacade, hparser, nofun⟩
  have hsets : World.start.addFacade.SetsItself 1 := ⟨howns.serves.2, rfl⟩
  obtain ⟨results, after, hrun, _, hcaptures⟩ := installs_settle hinstallable 9 30
  have hresults : results = [.error (.hostKindMismatch "parser" "facade"), .ok .null,
      .error .noHostKind, .ok .null, .ok .null] :=
    (Except.ok.inj (congrArg Prod.fst hrun)).symm
  subst hresults
  obtain ⟨parser, hserves, _, hafter, hsingle⟩ := hcaptures 0
    (.inl ⟨⟨1, .host 0, some .facade⟩, by simp [mixedInstalls], .inl rfl⟩)
  obtain rfl := hserves.unique howns.serves
  obtain ⟨honce, hanswers⟩ := hsingle (InstallCall.mk 2 (.host 0) none) _ hfacade (.inl rfl) rfl
  exact ⟨hinstallable, after, _, hrun, rfl, hafter, honce, hanswers hsets⟩

end Rulebook
