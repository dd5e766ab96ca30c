import Rulebook.Pattern.CharTest

/-!
# Pattern expressions

What a pattern means once its source has been read: flags have gone into the tests and anchors
they change, and groups are numbered. Alternatives and sequences have two members each, so every
function on expressions is a plain recursion.
-/

namespace Rulebook.Pattern

/-- Conditions on a place that consume nothing. -/
inductive Anchor
  /-- Before the first character. -/
  | textStart
  /-- Behind the last character. -/
  | textEnd
  /-- At the end, or before a line break that ends the text. -/
  | finalEnd
  /-- At the beginning or behind a line break. -/
  | lineStart
  /-- At the end or before a line break. -/
  | lineEnd
  /-- Where a word begins or ends, or, with `edge` false, anywhere else. -/
  | wordEdge (manner : Manner) (edge : Bool)
  /-- Before a character that passes a test. -/
  | before (test : CharTest)
deriving Repr, DecidableEq, Inhabited

/-- In which order a repetition tries its counts, and whether it may give back. -/
inductive Greed
  | greedy
  | reluctant
  | possessive
deriving Repr, DecidableEq, Inhabited

/-- Where a look-around looks. -/
inductive Side
  | ahead
  /-- At the characters before; the plain dialect looks at a fixed number of them. -/
  | behind (width : Nat)
deriving Repr, DecidableEq, Inhabited

/-- The least and the greatest number of characters that something consumes; without the second
there is no greatest one. -/
structure Width where
  least : Nat
  most : Option Nat
deriving Repr, DecidableEq, Inhabited

namespace Width

/-- Exactly so many characters. -/
def exact (count : Nat) : Width := ⟨count, some count⟩

/-- Any number of characters. -/
def any : Width := ⟨0, none⟩

/-- One after the other. -/
def add (first second : Width) : Width where
  least := first.least + second.least
  most :=
    match first.most, second.most with
    | some one, some other => some (one + other)
    | _, _ => none

/-- One or the other. -/
def either (first second : Width) : Width where
  least := min first.least second.least
  most :=
    match first.most, second.most with
    | some one, some other => some (max one other)
    | _, _ => none

/-- Several times, with the counts in order. -/
def times (width : Width) (least : Nat) (most : Option Nat) : Width where
  least := least * width.least
  most :=
    match most, width.most with
    | some count, some bound => some (count * bound)
    | some 0, none | none, some 0 => some 0
    | _, _ => none

/-- Whether there is one number of characters only. -/
def isFixed (width : Width) : Bool := width.most == some width.least

end Width

/-- A pattern expression. -/
inductive Expr
  | empty
  | one (test : CharTest)
  | assert (condition : Anchor)
  | seq (first second : Expr)
  | alt (first second : Expr)
  /-- A numbered group, which keeps the text it matched last. -/
  | group (index : Nat) (body : Expr)
  /-- A repetition; its site tells it from the others of a pattern. -/
  | many (site least : Nat) (most : Option Nat) (greed : Greed) (body : Expr)
  /-- Only the first way to match the body is tried. -/
  | atomic (body : Expr)
  /-- Looks at what follows, or at what came before, without consuming it. -/
  | look (side : Side) (positive : Bool) (body : Expr)
  /-- The text of a group once more. -/
  | again (manner : Manner) (index : Nat)
  /-- Drops what was matched so far from the text of the match. -/
  | keep
deriving Repr, DecidableEq, Inhabited

namespace Expr

/-- Expressions one after another. -/
def ofList : List Expr → Expr
  | [] => .empty
  | [last] => last
  | first :: rest => .seq first (ofList rest)

/-- One expression or another; the first that leads to a match counts. -/
def anyOf : List Expr → Expr
  | [] => .empty
  | [last] => last
  | first :: rest => .alt first (anyOf rest)

/-- The expressions that a sequence is made of. -/
def items : Expr → List Expr
  | .empty => []
  | .seq first second => first.items ++ second.items
  | other => [other]

/-- The expressions that a choice is made of. -/
def branches : Expr → List Expr
  | .alt first second => first.branches ++ second.branches
  | other => [other]

/-- Whether an expression is made of nothing that could consume or test anything. -/
def isHollow : Expr → Bool
  | .empty => true
  | .seq first second | .alt first second => first.isHollow && second.isHollow
  | .group _ body | .many _ _ _ _ body | .atomic body | .look _ true body => body.isHollow
  | .one _ | .assert _ | .again _ _ | .keep | .look _ false _ => false

/-- How many characters an expression consumes, given that for the groups it refers to. -/
def width (ofGroup : Nat → Width) : Expr → Width
  | .one _ => .exact 1
  | .seq first second => (first.width ofGroup).add (second.width ofGroup)
  | .alt first second => (first.width ofGroup).either (second.width ofGroup)
  | .group _ body | .atomic body => body.width ofGroup
  | .many _ least most _ body => (body.width ofGroup).times least most
  | .again _ index => ofGroup index
  | .empty | .assert _ | .look _ _ _ | .keep => .exact 0

/-- Whether the text of every match begins where matching began. -/
def keepsAll : Expr → Bool
  | .keep => false
  | .seq first second | .alt first second => first.keepsAll && second.keepsAll
  | .group _ body | .many _ _ _ _ body | .atomic body | .look _ _ body => body.keepsAll
  | .empty | .one _ | .assert _ | .again _ _ => true

/-- The groups whose text an expression asks for once more. -/
def recalled : Expr → List Nat
  | .again _ index => [index]
  | .seq first second | .alt first second => first.recalled ++ second.recalled
  | .group _ body | .many _ _ _ _ body | .atomic body | .look _ _ body => body.recalled
  | .empty | .one _ | .assert _ | .keep => []

/-- Gives every repetition a site of its own, counted from `next` on. -/
def withSites (next : Nat) : Expr → Expr × Nat
  | .seq first second =>
    let (first, next) := first.withSites next
    let (second, next) := second.withSites next
    (.seq first second, next)
  | .alt first second =>
    let (first, next) := first.withSites next
    let (second, next) := second.withSites next
    (.alt first second, next)
  | .group index body =>
    let (body, next) := body.withSites next
    (.group index body, next)
  | .many _ least most greed body =>
    let (body, after) := body.withSites (next + 1)
    (.many next least most greed body, after)
  | .atomic body =>
    let (body, next) := body.withSites next
    (.atomic body, next)
  | .look side positive body =>
    let (body, next) := body.withSites next
    (.look side positive body, next)
  | other => (other, next)

end Expr

end Rulebook.Pattern
