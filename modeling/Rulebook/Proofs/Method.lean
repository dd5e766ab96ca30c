import Rulebook.Interpreter
import Rulebook.Proofs.Ends

/-!
# Methods of a plain parser

A parser is plain if no member stands before a method of its class, so that every call of a method
by name, from outside or from another method, runs the method itself.
-/

namespace Rulebook

open Run

/-- A parser whose methods are those of its class. -/
structure World.Plain (world : World) (id : HostId) : Prop where
  present : id < world.hosts.size
  hostClass : (world.host id).hostClass = .parser
  members : ∀ method : ParserMethod, (world.host id).members.get? method.name = none

theorem ParserMethod.named?_name (method : ParserMethod) :
    ParserMethod.named? method.name = some (.parser method) := by
  cases method <;> rfl

theorem Host.attribute?_method (host : Host) (method : ParserMethod) :
    host.attribute? method.name = host.members.get? method.name := by
  cases method <;> rfl

theorem isComputed_method (host : Host) (method : ParserMethod) :
    isComputed host method.name = false := by
  cases method <;> rfl

section Plain

variable {world : World} {id : HostId}

/-- Being plain is about the host alone. -/
theorem World.Plain.congr {other : World} (hplain : world.Plain id)
    (hhosts : other.hosts.size = world.hosts.size)
    (hclass : (other.host id).hostClass = (world.host id).hostClass)
    (hmembers : (other.host id).members = (world.host id).members) : other.Plain id where
  present := hhosts ▸ hplain.present
  hostClass := hclass.trans hplain.hostClass
  members method := by rw [hmembers]; exact hplain.members method

/-- A method of the class is read where the host was given nothing in its place. -/
theorem attributeOf_method {name : String} {method : HostMethod}
    (hcomputed : isComputed (world.host id) name = false)
    (hclass : (world.host id).hostClass.method? name = some method)
    (hfree : (world.host id).attribute? name = none) :
    (attributeOf (.host id) name).outcome world =
      (.ok (.method world.serial (.host id) name), world.withSerial (world.serial + 1)) := by
  simp only [attributeOf, hostAttribute, outcome_bind, outcome_host, hcomputed, hfree, hclass,
    methodOf]
  rfl

/-- A call by name of a method that nothing stands before comes to the method, once it has taken a
serial number. -/
theorem invokeMethod_outcome {name : String} {method : HostMethod}
    (hcomputed : isComputed (world.host id) name = false)
    (hclass : (world.host id).hostClass.method? name = some method)
    (hfree : (world.host id).attribute? name = none) (rounds depth : Nat) (args : Args) :
    ((Kernel.ofDepth rounds (depth + 1)).invoke (.method (.host id) name) args).outcome world =
      (method.run (Kernel.ofDepth rounds depth) id args).outcome
        (world.withSerial (world.serial + 1)) := by
  have hclass' : ((world.withSerial (world.serial + 1)).host id).hostClass.method? name =
      some method := hclass
  simp only [Kernel.ofDepth, invokeAt, outcome_bind, attributeOf_method hcomputed hclass hfree,
    callValue, outcome_host, hclass']

theorem sendFree_outcome {method : ParserMethod}
    (hclass : (world.host id).hostClass.method? method.name = some (.parser method))
    (hfree : (world.host id).members.get? method.name = none) (rounds depth : Nat)
    (values : List Value) :
    ((Kernel.ofDepth rounds (depth + 1)).sendHost id method.name values).outcome world =
      ((HostMethod.parser method).run (Kernel.ofDepth rounds depth) id (.of values)).outcome
        (world.withSerial (world.serial + 1)) :=
  invokeMethod_outcome (isComputed_method _ method) hclass
    ((Host.attribute?_method _ method).trans hfree) rounds depth (.of values)

theorem parser_method? (hclass : (world.host id).hostClass = .parser) (method : ParserMethod) :
    (world.host id).hostClass.method? method.name = some (.parser method) := by
  rw [hclass]
  exact method.named?_name

theorem World.Plain.method? (hplain : world.Plain id) (method : ParserMethod) :
    (world.host id).hostClass.method? method.name = some (.parser method) :=
  parser_method? hplain.hostClass method

end Plain

/-! ## Arguments -/

theorem Args.bind?_of_length {values : List Value} {params : List Param}
    (hlength : values.length = params.length) : (Args.of values).bind? params = some values := by
  simp [Args.bind?, Args.of, hlength, Args.bindNamed]

theorem Args.bind_of_length {values : List Value} {params : List Param}
    (hlength : values.length = params.length) : (Args.of values).bind params = pure values := by
  rw [Args.bind, Args.bind?_of_length hlength]

/-- A call by name of a method that no member stands before runs the method, once it has taken a
serial number. -/
theorem sendFree_run_outcome {world : World} {id : HostId} (method : ParserMethod)
    (hclass : (world.host id).hostClass.method? method.name = some (.parser method))
    (hfree : (world.host id).members.get? method.name = none) (rounds depth : Nat)
    {values : List Value} (hlength : values.length = method.params.length) :
    ((Kernel.ofDepth rounds (depth + 1)).sendHost id method.name values).outcome world =
      (method.run (Kernel.ofDepth rounds depth) id values).outcome
        (world.withSerial (world.serial + 1)) := by
  rw [sendFree_outcome hclass hfree]
  simp only [HostMethod.run, Args.bind_of_length hlength, pure_bind]

theorem sendHost_run_outcome {world : World} {id : HostId} (hplain : world.Plain id)
    (rounds depth : Nat) (method : ParserMethod) {values : List Value}
    (hlength : values.length = method.params.length) :
    ((Kernel.ofDepth rounds (depth + 1)).sendHost id method.name values).outcome world =
      (method.run (Kernel.ofDepth rounds depth) id values).outcome
        (world.withSerial (world.serial + 1)) :=
  sendFree_run_outcome method (hplain.method? method) (hplain.members method) rounds depth hlength

/-- Calling a value uses up one level of depth. -/
theorem call_eq (rounds depth : Nat) (callable : Value) (values : List Value) :
    (Kernel.ofDepth rounds (depth + 1)).call callable values =
      callValue (Kernel.ofDepth rounds depth) callable (.of values) := rfl

/-- A pattern rule is called with the parser that it runs for. -/
theorem call_patternRule (rounds depth serial : Nat) (name : String) (label pattern : Value)
    (id : HostId) :
    (Kernel.ofDepth rounds (depth + 1)).call (.patternRule serial name label pattern) [.host id] =
      runPatternRule (Kernel.ofDepth rounds depth) label pattern (.host id) := by
  have hbind : (Args.of [.host id]).bind [.needed "parser"] = pure [.host id] :=
    Args.bind_of_length rfl
  rw [call_eq, callValue, hbind, pure_bind]

section Send

variable {world : World} {id : HostId} {rounds depth : Nat}
  {post : Except Fault Value → World → Prop}

/-- What a method does with its arguments is what a call of it by name does. -/
theorem sendFree_bound_ends (method : ParserMethod)
    (hclass : (world.host id).hostClass.method? method.name = some (.parser method))
    (hfree : (world.host id).members.get? method.name = none) (values : List Value)
    {bound : List Value} (hbind : (Args.of values).bind method.params = pure bound)
    (hrun : (method.run (Kernel.ofDepth rounds depth) id bound).Ends world post) :
    ((Kernel.ofDepth rounds (depth + 1)).sendHost id method.name values).Ends world post := by
  intro serial
  have hclass' : ((world.withSerial serial).host id).hostClass.method? method.name =
      some (.parser method) := hclass
  have hfree' : ((world.withSerial serial).host id).members.get? method.name = none := hfree
  rw [sendFree_outcome hclass' hfree']
  simp only [HostMethod.run, hbind, pure_bind]
  exact hrun _

theorem sendFree_ends (method : ParserMethod)
    (hclass : (world.host id).hostClass.method? method.name = some (.parser method))
    (hfree : (world.host id).members.get? method.name = none) (values : List Value)
    (hlength : values.length = method.params.length)
    (hrun : (method.run (Kernel.ofDepth rounds depth) id values).Ends world post) :
    ((Kernel.ofDepth rounds (depth + 1)).sendHost id method.name values).Ends world post :=
  sendFree_bound_ends method hclass hfree values (Args.bind_of_length hlength) hrun

theorem sendHost_bound_ends (hplain : world.Plain id) (method : ParserMethod)
    (values : List Value) {bound : List Value}
    (hbind : (Args.of values).bind method.params = pure bound)
    (hrun : (method.run (Kernel.ofDepth rounds depth) id bound).Ends world post) :
    ((Kernel.ofDepth rounds (depth + 1)).sendHost id method.name values).Ends world post :=
  sendFree_bound_ends method (hplain.method? method) (hplain.members method) values hbind hrun

theorem sendHost_ends (hplain : world.Plain id) (method : ParserMethod) (values : List Value)
    (hlength : values.length = method.params.length)
    (hrun : (method.run (Kernel.ofDepth rounds depth) id values).Ends world post) :
    ((Kernel.ofDepth rounds (depth + 1)).sendHost id method.name values).Ends world post :=
  sendHost_bound_ends hplain method values (Args.bind_of_length hlength) hrun

end Send

end Rulebook
