import Rulebook.Pattern.Extended
import Rulebook.Pattern.Plain
import Rulebook.Pattern.Reader

/-!
# Compiled patterns

A pattern is compiled from a source, a dialect and flags, and from nothing else, so two patterns
compiled alike are one and the same. A binary pattern is one over bytes, each given as a character;
it is matched against bytes and never against a text.
-/

namespace Rulebook

/-- A pattern ready for matching. -/
structure Pattern where
  dialect : Dialect
  source : String
  binary : Bool
  /-- The flags it was compiled under. -/
  given : Flags
  /-- The flags in force at its end, which are those that it shows. -/
  flags : Flags
  expr : Pattern.Expr
  groupCount : Nat
  names : List (String × Nat)
deriving Repr, DecidableEq, Inhabited

namespace Pattern

/-- Reads a source in a dialect. -/
def read (dialect : Dialect) (source : List Char) (given : Flags) :
    Except Refusal (Expr × Reading) :=
  match dialect with
  | .plain => readPlain source 6 given
  | .extended =>
    (readExtended source given).map fun (expr, reading) => (expr.guarded, reading)

/-- Compiles a source, or tells why it is no pattern of the dialect. Bytes beyond ASCII are in no
class, whether that flag is shown or not. -/
def compile (dialect : Dialect) (source : String) (binary : Bool) (given : Flags) :
    Except Refusal Pattern := do
  let (expr, reading) ← read dialect source.toList { given with ascii := given.ascii || binary }
  let flags := { reading.flags with ascii := reading.flags.ascii && (given.ascii || !binary) }
  return ⟨dialect, source, binary, given, flags, (expr.withSites 0).1, reading.groupCount,
    reading.names⟩

/-- Matches a pattern at the beginning of a text. -/
def match? (pattern : Pattern) (text : List Char) : Option Match :=
  match pattern.dialect with
  | .plain => pattern.expr.matchPlain? pattern.groupCount pattern.names text.toArray
  | .extended => pattern.expr.matchExtended? pattern.groupCount pattern.names text.toArray

end Pattern

end Rulebook
