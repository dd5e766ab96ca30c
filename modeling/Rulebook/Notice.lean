import Rulebook.Value
import Rulebook.Text.Quoted

/-!
# Notices

What capturing and installing report as they succeed, each as one line with the name of its
source and its level.
-/

namespace Rulebook

/-- A report of success. -/
inductive Notice
  | callbackRule (label : String)
  /-- A rule from a pattern, with the pattern's source as it is spelled. -/
  | patternRule (label spelling : String)
  | installed (kind : HostKind)
deriving Repr, DecidableEq, Inhabited

/-- The line of a notice. -/
def Notice.line : Notice → String
  | .callbackRule label =>
    "caprule.registrar.rules:DEBUG:capture " ++ Text.quoted label ++ ": callback rule"
  | .patternRule label spelling =>
    "caprule.registrar.rules:DEBUG:capture " ++ Text.quoted label ++ ": pattern rule " ++ spelling
  | .installed kind => "caprule.registrar:DEBUG:installed capture on " ++ kind.word

end Rulebook
