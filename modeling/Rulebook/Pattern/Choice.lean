import Rulebook.Pattern.Expr

/-!
# Choices in their simplest form

What all alternatives of a choice begin with stands before the choice, and alternatives that are
tests on one character become one test. This is more than a saving. A test without regard to case
asks for a variant of the character in the joined set, and in the extended dialect the complements
of single characters join to the complement of all these characters.
-/

namespace Rulebook.Pattern

namespace CharSet

/-- The characters that a complement of single characters leaves out. -/
def omitted? : CharSet → Option (List Nat)
  | .except (.codes members) => some members
  | _ => none

/-- Sets where the complements of single characters have become one complement. -/
def packed (sets : List CharSet) : List CharSet :=
  match sets.filterMap omitted? with
  | [] => sets
  | omitted =>
    .except (.codes omitted.flatten.eraseDups) :: sets.filter (·.omitted?.isNone)

/-- One set in place of several. -/
def join (sets : List CharSet) : CharSet :=
  match sets.eraseDups with
  | [only] => only
  | sets =>
    let parts := sets.flatMap CharSet.parts
    if exhausts parts then .all else ofParts (packed parts)

/-- Whether a set that makes an alternative is joined with its neighbours. -/
def isJoinable : CharSet → Bool
  | .codes _ | .shorthand _ | .union _ _ => true
  | .except (.codes _) | .except (.shorthand _) | .except (.union _ _) => true
  | _ => false

/-- Whether the plain dialect takes a set for a list of members, and not for what they leave out. -/
def isListed : CharSet → Bool
  | .codes _ | .range _ _ | .shorthand _ | .union _ _ | .except (.shorthand _) => true
  | _ => false

end CharSet

namespace Expr

/-- The test that an expression is, if it is one. -/
def test? : Expr → Option CharTest
  | .one test => some test
  | _ => none

/-- Whether an expression that all alternatives begin with is moved before the choice. -/
def isAffix (dialect : Dialect) : Expr → Bool
  | .one _ | .assert _ | .again _ _ => true
  | .group _ _ | .many _ _ _ _ _ => false
  | .empty | .keep => dialect == .extended
  | .seq first second | .alt first second =>
    dialect == .extended && first.isAffix dialect && second.isAffix dialect
  | .atomic body | .look _ _ body => dialect == .extended && body.isAffix dialect

/-- What a list of parts and all others begin with, as far as it may be moved. -/
def sharedBy (movable : Expr → Bool) : List Expr → List (List Expr) → List Expr
  | [], _ => []
  | first :: rest, others =>
    if movable first && others.all (·.head? == some first) then
      first :: sharedBy movable rest (others.map List.tail)
    else []

/-- The test that stands for several of one manner. -/
def joined (tests : List CharTest) : Expr :=
  match tests with
  | [] => .empty
  | first :: _ => .one ⟨.join (tests.map CharTest.set), first.manner⟩

/-- Whether two neighbouring alternatives are joined. -/
def joins (first second : Expr) : Bool :=
  match first.test?, second.test? with
  | some left, some right =>
    left.set.isJoinable && right.set.isJoinable && left.manner == right.manner
  | _, _ => false

/-- Alternatives where neighbouring tests have been joined. -/
def joinNeighbours (branches : List Expr) : List Expr :=
  (branches.splitBy joins).map fun run =>
    match run with
    | [only] => only
    | _ => joined (run.filterMap test?)

/-- Alternatives as one test, if each of them is a list of characters; else as they are. -/
def joinListed (branches : List Expr) : List Expr :=
  match branches.filterMap test? with
  | [] => branches
  | first :: rest =>
    if rest.length + 1 == branches.length && (first :: rest).all (·.set.isListed) &&
        rest.all (·.manner == first.manner) then
      [.one ⟨.ofParts ((first :: rest).flatMap (·.set.parts)), first.manner⟩]
    else branches

/-- A choice between alternatives. Those of the extended dialect that are choices themselves are
taken apart, and looking `backward` it is the end of the alternatives that is matched first. -/
def choice (dialect : Dialect) (backward : Bool) (alternatives : List Expr) : Expr :=
  match alternatives with
  | [only] => only
  | _ =>
    let apart := if dialect == .extended then alternatives.flatMap branches else alternatives
    let turned := fun (parts : List Expr) => if backward then parts.reverse else parts
    let lists := apart.map fun branch => turned branch.items
    let shared := sharedBy (·.isAffix dialect) (lists.headD []) lists.tail
    let rests := lists.map fun list => ofList (turned (list.drop shared.length))
    let rest := anyOf (if dialect == .extended then joinNeighbours rests else joinListed rests)
    ofList (if backward then rest.items ++ shared.reverse else shared ++ rest.items)

/-- A repetition. Where the extended dialect repeats a shorthand about case within ASCII without
regard to case, only the first character is tested so, and only if there has to be one. -/
def repetition (least : Nat) (most : Option Nat) (greed : Greed) (body : Expr) : Expr :=
  match body with
  | .one ⟨set, manner⟩ =>
    let strict := Expr.one ⟨set, manner.strict⟩
    match set.shorthand?, manner with
    | some (kind, _), ⟨.extended, true, true⟩ =>
      if !kind.isCaseBound then .many 0 least most greed body
      else if least = 0 then .many 0 least most greed strict
      else .seq body (.many 0 (least - 1) (most.map (· - 1)) greed strict)
    | _, _ => .many 0 least most greed body
  | _ => .many 0 least most greed body

end Expr

end Rulebook.Pattern
