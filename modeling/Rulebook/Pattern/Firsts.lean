import Rulebook.Pattern.Choice

/-!
# What a match may begin with

Where every match of an expression of the extended dialect begins with a character of known sets,
matching starts with a look at that character. The sets are joined first, so this look may refuse
a character that one of the tests alone would take.
-/

namespace Rulebook.Pattern

/-- The tests that the first character of a match may pass, and whether there may be a match
without any character. -/
structure Firsts where
  tests : List CharTest
  mayBeEmpty : Bool
deriving Repr, DecidableEq, Inhabited

namespace Firsts

/-- A match consumes nothing. -/
def nothing : Firsts := ⟨[], true⟩

/-- One match after another. -/
def andThen (first second : Firsts) : Firsts :=
  if first.mayBeEmpty then ⟨first.tests ++ second.tests, second.mayBeEmpty⟩ else first

/-- One match or another. -/
def orElse (first second : Firsts) : Firsts :=
  ⟨first.tests ++ second.tests, first.mayBeEmpty || second.mayBeEmpty⟩

/-- The one test that the first character of any match passes, if that is worth a look. -/
def test? (firsts : Firsts) : Option CharTest :=
  let isOneOmitted := fun (test : CharTest) =>
    match test.set.omitted? with
    | some [_] => true
    | _ => false
  match firsts.tests with
  | [] => none
  | first :: _ =>
    if firsts.mayBeEmpty || firsts.tests.any isOneOmitted then none
    else
      match CharSet.join (firsts.tests.map CharTest.set) with
      | .all => none
      | set =>
        let ignoreCase := firsts.tests.any (·.manner.ignoreCase)
        some ⟨set, { first.manner with ignoreCase }⟩

end Firsts

namespace Expr

/-- What a match may begin with, where that is known. -/
def firsts? : Expr → Option Firsts
  | .one test => if test.set = .inline ∨ test.set = .all then none else some ⟨[test], false⟩
  | .seq first second =>
    match first.firsts?, second.firsts? with
    | some first, some second => some (first.andThen second)
    | some first, none => if first.mayBeEmpty then none else some first
    | none, _ => none
  | .alt first second =>
    match first.firsts?, second.firsts? with
    | some first, some second => some (first.orElse second)
    | _, _ => none
  | .group _ body | .atomic body | .look .ahead true body => body.firsts?
  | .many _ least _ _ body =>
    body.firsts?.map fun firsts => { firsts with mayBeEmpty := firsts.mayBeEmpty || least == 0 }
  | .again _ _ => none
  | .empty | .assert _ | .keep | .look _ _ _ => some .nothing

/-- An expression that looks at the first character before anything else. -/
def guarded (expr : Expr) : Expr :=
  match expr.firsts?.bind Firsts.test? with
  | some test => .seq (.assert (.before test)) expr
  | none => expr

end Expr

end Rulebook.Pattern
