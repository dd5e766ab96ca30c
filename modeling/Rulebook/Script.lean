import Rulebook.Datum
import Rulebook.Pattern.Flags

/-!
# Scripts

Callbacks are given as scripts: statements that call functions and methods, read and write
attributes, branch, loop, catch faults and trace values. A script is plain data, so a rule, a
plugin or an installed method can be stored, shown and reasoned about like any other value.

Every action may store its result in a variable. A script names the object of an action by the
variable that holds it.
-/

namespace Rulebook

/-- The faults that a script can raise itself. -/
inductive RaisedKind
  | value
  | malformed
  | missingKey
  | configuration
deriving Repr, DecidableEq, Inhabited

mutual

/-- An expression of a script. -/
inductive Term
  | datum (value : Datum)
  | var (name : String)
  /-- A byte string, one character for each byte. -/
  | bytes (value : String)
  /-- A pattern to be compiled. -/
  | pattern (dialect : Dialect) (source : String) (binary : Bool) (flags : String)
  /-- A new callback. -/
  | callback (name : String) (body : List Stmt)

/-- A condition of a script. -/
inductive Cond
  | not (condition : Cond)
  /-- The value is there, that is, not null. -/
  | present (term : Term)
  | equal (first second : Term)

/-- A statement. -/
inductive Stmt
  /-- Ends the callback with a result. -/
  | give (result : Term)
  /-- Leaves the innermost loop. -/
  | leave
  /-- Notes what a value looks like now. -/
  | trace (term : Term)
  | raise (kind : RaisedKind) (text : String)
  | branch (condition : Cond) (yes no : List Stmt)
  /-- Repeats until it is left. -/
  | loop (body : List Stmt)
  /-- Runs the handler after a fault, with the fault in a variable. -/
  | attempt (body : List Stmt) (name : String) (handler : List Stmt)
  /-- Acts, and stores the result in a variable if one is named. -/
  | act (action : Action) (target : Option String)

/-- What a statement can do to the world. -/
inductive Action
  /-- Calls a function of the library by its name. -/
  | call (function : String) (arguments : List Term) (named : List (String × Term))
  /-- Calls a method of the object in a variable. -/
  | send (object method : String) (arguments : List Term) (named : List (String × Term))
  /-- Reads an attribute. -/
  | read (object field : String)
  /-- Writes an attribute. -/
  | write (object field : String) (term : Term)
  /-- Removes a rule, if it is there. -/
  | drop (object : String) (rule : Datum)

end

end Rulebook
