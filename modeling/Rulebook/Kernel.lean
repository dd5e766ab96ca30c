import Rulebook.Run

/-!
# Calls

Methods call each other through the object they belong to, so a member that stands before a method
takes its place everywhere. A kernel is the means to make such a call: methods are written against
a kernel, and the interpreter ties the knot with one that has a given depth of calls left.

Arguments come in order and by name, and are bound to parameters before a method runs.
-/

namespace Rulebook

/-- The arguments of a call. -/
structure Args where
  positional : List Value
  named : List (String × Value)
deriving Inhabited

/-- Arguments in order only. -/
def Args.of (values : List Value) : Args := ⟨values, []⟩

/-- A parameter, with the value it has when no argument is given for it. -/
structure Param where
  name : String
  standard : Option Value
deriving Inhabited

/-- A parameter that has to be given. -/
def Param.needed (name : String) : Param := ⟨name, none⟩

/-- A parameter that may be left out. -/
def Param.optional (name : String) (standard : Value) : Param := ⟨name, some standard⟩

/-- The arguments for parameters that get none in order. -/
def Args.bindNamed (named : List (String × Value)) : List Param → Option (List Value)
  | [] => some []
  | param :: rest =>
    match named.lookup param.name <|> param.standard, Args.bindNamed named rest with
    | some value, some values => some (value :: values)
    | _, _ => none

/-- Binds arguments to parameters, in the order of the parameters. Too many arguments, a missing
one, an unknown name, and a name given twice are refused. -/
def Args.bind? (args : Args) (params : List Param) : Option (List Value) :=
  let count := args.positional.length
  let unfilled := params.drop count
  if count ≤ params.length ∧
      (args.named.all fun arg => unfilled.any fun param => param.name == arg.1) ∧
      (args.named.map Prod.fst).eraseDups.length = args.named.length then
    (Args.bindNamed args.named unfilled).map (args.positional ++ ·)
  else none

/-- Binds arguments to parameters or fails. -/
def Args.bind (args : Args) (params : List Param) : Run (List Value) :=
  match args.bind? params with
  | some values => return values
  | none => Run.fail .wrongType

/-- What a call is addressed to. -/
inductive Callee
  /-- A value that is called itself. -/
  | value (callable : Value)
  /-- A method of a receiver, or a member of it with that name. -/
  | method (receiver : Value) (name : String)
deriving Inhabited

/-- The means to make calls, and how often a loop may go round. -/
structure Kernel where
  fuel : Nat
  invoke : Callee → Args → Run Value

namespace Kernel

/-- Calls a value. -/
def call (kernel : Kernel) (callable : Value) (values : List Value) : Run Value :=
  kernel.invoke (.value callable) (.of values)

/-- Calls a method of a value. -/
def send (kernel : Kernel) (receiver : Value) (name : String) (values : List Value) : Run Value :=
  kernel.invoke (.method receiver name) (.of values)

/-- Calls a method of a host. -/
def sendHost (kernel : Kernel) (id : HostId) (name : String) (values : List Value) : Run Value :=
  kernel.send (.host id) name values

end Kernel

end Rulebook
