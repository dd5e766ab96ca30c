import Rulebook.Proofs.Alike.Apart
import Rulebook.Proofs.Registration
import Rulebook.Proofs.ScriptRun

/-!
# Facades

A facade with `capture` installed hands what it is asked for on to the parser that it owns. Whatever
is asked of the two, in any order, comes to what it comes to when a parser alone is asked, and
stands by itself: nothing that a call can get at refers to the facade but the facade, so anything
can be in its place.

A call that goes by the facade is nested more deeply when it reaches the parser, and may have used
up serial numbers, which tell objects apart and nothing else.
-/

namespace Rulebook

open Run

/-! ## Calls -/

/-- A call of `capture` with any arguments, or of `parse` with a text or what is given for one. -/
inductive HostCall
  | capture (args : Args)
  | parse (text : Value)

namespace HostCall

/-- The name under which a call is made. -/
def name : HostCall → String
  | capture _ => "capture"
  | parse _ => "parse"

/-- The arguments of a call. -/
def args : HostCall → Args
  | capture args => args
  | parse text => .of [text]

/-- Makes a call of a host. -/
def issue (call : HostCall) (kernel : Kernel) (id : HostId) : Run Value :=
  kernel.invoke (.method (.host id) call.name) call.args

/-- How many calls a facade makes before it calls its parser. -/
def detour : HostCall → Nat
  | capture _ => 2
  | parse _ => 1

/-- How many serial numbers a facade uses up before it calls its parser. A method of a class is made
anew where it is looked up, and takes one. -/
def numbers : HostCall → Nat
  | capture _ => 0
  | parse _ => 1

/-- None of the arguments refers to a host. -/
structure Unaware (call : HostCall) (id : HostId) : Prop where
  positional : ∀ value ∈ call.args.positional, value.Unaware id
  named : ∀ arg ∈ call.args.named, arg.2.Unaware id

end HostCall

/-- A call of a facade or of the parser that it owns. -/
inductive Addressed
  | facade (call : HostCall)
  | parser (call : HostCall)

namespace Addressed

/-- What is called for. -/
def call : Addressed → HostCall
  | facade call | parser call => call

/-- Makes a call of whom it is addressed to. One of a facade may be nested as much more deeply as it
is by the facade. -/
def issue (rounds depth : Nat) (facade parser : HostId) : Addressed → Run Value
  | .facade call => call.issue (Kernel.ofDepth rounds (depth + call.detour)) facade
  | .parser call => call.issue (Kernel.ofDepth rounds depth) parser

/-- Uses up serial numbers. -/
def skip (count : Nat) : Run Unit :=
  modify fun world => { world with serial := world.serial + count }

end Addressed

/-- A facade owns a parser, and neither has been given anything in the place of the methods that
matter here. -/
structure World.Owns (world : World) (facade parser : HostId) : Prop where
  apart : parser ≠ facade
  present : parser < world.hosts.size
  facadeKind : world.kindsOf (.host facade) = [.facade]
  parserKind : world.kindsOf (.host parser) = [.parser]
  nested : (world.host facade).attribute? "parser" = some (.host parser)
  parse : (world.host facade).attribute? "parse" = none
  define : (world.host facade).attribute? "define" = none
  parserDefine : (world.host parser).attribute? "define" = none

/-- A facade forwards captures and texts to a parser. -/
structure World.Forwards (world : World) (facade parser : HostId) : Prop where
  apart : parser ≠ facade
  facadeKind : world.kindsOf (.host facade) = [.facade]
  nested : (world.host facade).attribute? "parser" = some (.host parser)
  parse : (world.host facade).attribute? "parse" = none
  capture : ∃ serial,
    (world.host facade).attribute? "capture" = some (.bound serial facade .forward)

section Kinds

variable {world : World} {id : HostId}

theorem method?_of_facadeKind (hkind : world.kindsOf (.host id) = [.facade]) (name : String) :
    (world.host id).hostClass.method? name = FacadeMethod.named? name := by
  rw [World.kindsOf] at hkind
  cases hclass : (world.host id).hostClass <;> rw [hclass] at hkind <;>
    first | rfl | exact absurd hkind (by decide)

theorem method?_of_parserKind (hkind : world.kindsOf (.host id) = [.parser]) (name : String) :
    (world.host id).hostClass.method? name = ParserMethod.named? name := by
  rw [World.kindsOf] at hkind
  cases hclass : (world.host id).hostClass <;> rw [hclass] at hkind <;>
    first | rfl | exact absurd hkind (by decide)

theorem resolveKind_outcome {kind : HostKind} (hkind : world.kindsOf (.host id) = [kind]) :
    (resolveKind (.host id) .null).outcome world = (.ok kind, world) := by
  refine (outcome_bind_ok (outcome_get _)).trans ?_
  rw [hkind]
  rfl

end Kinds

/-! ## Forwarding -/

section Forwards

variable {world : World} {facade parser : HostId} (rounds depth : Nat)

theorem World.Forwards.congr {other : World} (hforwards : world.Forwards facade parser)
    (hhost : other.host facade = world.host facade) : other.Forwards facade parser where
  apart := hforwards.apart
  facadeKind := (congrArg (fun host : Host => [HostKind.facade, .parser].filter host.hostClass.isA)
    hhost).trans hforwards.facadeKind
  nested := hhost ▸ hforwards.nested
  parse := hhost ▸ hforwards.parse
  capture := hhost ▸ hforwards.capture

/-- A facade that is asked to capture asks its parser. -/
theorem World.Forwards.capture_outcome (hforwards : world.Forwards facade parser) (args : Args) :
    ((HostCall.capture args).issue (Kernel.ofDepth rounds (depth + 2)) facade).outcome world =
      ((HostCall.capture args).issue (Kernel.ofDepth rounds depth) parser).outcome world := by
  obtain ⟨serial, hcapture⟩ := hforwards.capture
  have hmember : (attributeOf (.host facade) "capture").outcome world =
      (.ok (.bound serial facade .forward), world) := attributeOf_look hcapture rfl world.serial
  have hnested : (attributeOf (.host facade) "parser").outcome world =
      (.ok (.host parser), world) := attributeOf_look hforwards.nested rfl world.serial
  exact (outcome_bind_ok hmember).trans (outcome_bind_ok hnested)

end Forwards

/-! ## Installing -/

section Install

variable {world : World} {facade parser : HostId} (rounds depth : Nat)

/-- The world with `capture` installed on the parser of a facade, as far as it is not about the
facade. -/
def World.installedOn (world : World) (parser : HostId) : World :=
  (world.addCapture parser (world.serial + 1)).withSerial (world.serial + 4)

/-- A facade that hands captures on. -/
def Host.forwarding (host : Host) (facade : HostId) (serial : Nat) : Host :=
  host.setAttribute "capture" (.bound serial facade .forward)

theorem World.changeHost_withHost (hapart : parser ≠ facade) (other : Host)
    (notices : Array Notice) (change : Host → Host) :
    (world.withHost facade other notices).changeHost parser change =
      (world.changeHost parser change).withHost facade other notices := by
  have hhosts : (world.hosts.modify facade fun _ => other).modify parser change =
      (world.hosts.modify parser change).modify facade fun _ => other := by
    apply Array.ext (by simp)
    intro place _ _
    simp only [Array.getElem_modify]
    by_cases hparser : parser = place
    · have hfacade : facade ≠ place := fun hsame => hapart (hparser.trans hsame.symm)
      simp only [if_pos hparser, if_neg hfacade]
    · simp only [if_neg hparser]
  simp only [World.withHost, World.changeHost, hhosts]

theorem World.changeHost_eq_withHost (change : Host → Host) :
    world.changeHost facade change =
      world.withHost facade (change (world.host facade)) world.notices := by
  have hsame : world.changeHost facade change =
      world.changeHost facade fun _ => change (world.host facade) := World.changeHost_congr rfl
  exact hsame

theorem World.Owns.installFacade_outcome (howns : world.Owns facade parser) :
    (install (Kernel.ofDepth rounds (depth + 1)) (.host facade) .null).outcome world =
      (.ok .null, (world.installedOn parser).withHost facade
        ((world.host facade).forwarding facade (world.serial + 3))
        (world.notices.push (.installed .facade))) := by
  let equipped := (world.addCapture parser (world.serial + 1)).withSerial (world.serial + 2)
  have hhost : equipped.host facade = world.host facade := by
    change (world.changeHost parser _).host facade = _
    rw [World.host_changeHost, if_neg fun hsame => howns.apart hsame.1]
  have hnested := attributeOf_look howns.nested rfl world.serial
  have hparser : ((Kernel.ofDepth rounds (depth + 1)).sendHost parser "define"
      [.text "capture", .captureRule]).outcome world = (.ok (.host parser), equipped) :=
    invokeMethod_outcome rfl (method?_of_parserKind howns.parserKind "define") howns.parserDefine
      rounds depth _
  have hclass : (equipped.host facade).hostClass.method? "define" = some (.facade .define) := by
    rw [hhost]
    exact method?_of_facadeKind howns.facadeKind "define"
  have hfree : (equipped.host facade).attribute? "define" = none := hhost ▸ howns.define
  have hfacade : ((Kernel.ofDepth rounds (depth + 1)).sendHost facade "define"
      [.text "capture", .forward]).outcome equipped = (.ok (.host facade),
        (equipped.changeHost facade fun host =>
          host.forwarding facade (world.serial + 3)).withSerial (world.serial + 4)) :=
    invokeMethod_outcome rfl hclass hfree rounds depth _
  refine (outcome_bind_ok (resolveKind_outcome howns.facadeKind)).trans ?_
  refine (outcome_bind_ok hnested).trans ?_
  refine (outcome_bind_ok hparser).trans ?_
  refine (outcome_bind_ok hfacade).trans ?_
  rw [World.changeHost_eq_withHost, hhost]
  rfl

theorem World.Owns.installParser_outcome (howns : world.Owns facade parser) (other : Host)
    (notices : Array Notice) :
    (install (Kernel.ofDepth rounds (depth + 1)) (.host parser) .null).outcome
      (world.withHost facade other notices) =
        (.ok .null, ((world.installedOn parser).withHost facade other
          (notices.push (.installed .parser))).withSerial (world.serial + 2)) := by
  let alone := world.withHost facade other notices
  have hhost : alone.host parser = world.host parser :=
    World.host_withHost other notices howns.apart
  have hkind : alone.kindsOf (.host parser) = [.parser] := by
    rw [World.kindsOf, hhost]
    exact howns.parserKind
  have hdefine : ((Kernel.ofDepth rounds (depth + 1)).sendHost parser "define"
      [.text "capture", .captureRule]).outcome alone = (.ok (.host parser),
        (alone.addCapture parser (world.serial + 1)).withSerial (world.serial + 2)) :=
    invokeMethod_outcome rfl (method?_of_parserKind hkind "define")
      (hhost ▸ howns.parserDefine) rounds depth _
  refine (outcome_bind_ok (resolveKind_outcome hkind)).trans ?_
  refine (outcome_bind_ok hdefine).trans ?_
  rw [World.addCapture, World.changeHost_withHost howns.apart]
  rfl

end Install

/-! ## New facades -/

section New

variable {world : World}

/-- A facade that has no parser yet. -/
def Host.bareFacade (id : HostId) : Host :=
  { Host.bare .facade with options := some (.record (.options id)) }

/-- The world with a new facade and the parser that it owns. -/
def World.addFacade (world : World) : World :=
  let id := world.hosts.size
  (world.addHost (.bareFacade id)).addParser.changeHost id fun host =>
    { host with nested := some (.host (id + 1)) }

theorem World.addFacade_owns : world.addFacade.Owns world.hosts.size (world.hosts.size + 1) := by
  let made := world.addHost (.bareFacade world.hosts.size)
  have hmade : made.hosts.size = world.hosts.size + 1 := Array.size_push _
  have hparser : world.addFacade.host (world.hosts.size + 1) =
      made.addParser.host made.hosts.size := by
    rw [World.addFacade, World.host_changeHost,
      if_neg fun hsame => absurd hsame.1.symm (Nat.succ_ne_self _), ← hmade]
  have hfacade : world.addFacade.host world.hosts.size =
      { Host.bareFacade world.hosts.size with nested := some (.host (world.hosts.size + 1)) } := by
    have hbefore : made.addParser.host world.hosts.size = .bareFacade world.hosts.size := by
      have hapart : world.hosts.size ≠ made.hosts.size := hmade ▸ (Nat.succ_ne_self _).symm
      rw [World.addParser, World.restart, World.host_changeHost,
        if_neg fun hsame => hapart hsame.1.symm]
      change (made.addHost _).host world.hosts.size = _
      rw [World.host_addHost, if_neg hapart, World.host_addHost, if_pos rfl]
    have hpresent : world.hosts.size < made.addParser.hosts.size :=
      Nat.lt_trans (hmade ▸ Nat.lt_succ_self _) made.hosts_addParser
    rw [World.addFacade, World.host_changeHost, if_pos ⟨rfl, hpresent⟩, hbefore]
  rw [World.host_addParser] at hparser
  exact
    { apart := Nat.succ_ne_self _
      present := by
        rw [World.addFacade, World.changeHost, Array.size_modify, ← hmade]
        exact made.hosts_addParser
      facadeKind := by
        rw [World.kindsOf, hfacade]
        rfl
      parserKind := by
        rw [World.kindsOf, hparser]
        rfl
      nested := by rw [hfacade]; rfl
      parse := by rw [hfacade]; rfl
      define := by rw [hfacade]; rfl
      parserDefine := by rw [hparser]; rfl }

end New

end Rulebook
