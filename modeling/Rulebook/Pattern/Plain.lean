import Rulebook.Pattern.Subject

/-!
# Matching in the plain dialect

Every expression hands the places it can reach to what has to match next, in the order of its
preference; the first one that is taken wins. Groups leave a mark where they begin and one where
they end. A way that leads nowhere leaves its marks behind, so where matching goes on from an
earlier place, that place says how much of the marks is taken back: inside a repetition all of it,
elsewhere only the marks that were not there before.
-/

namespace Rulebook.Pattern.Plain

/-- The places of the marks up to the highest one set. Group `n` has the marks `2 * n - 2` and
`2 * n - 1`. -/
abbrev Marks := Array (Option Nat)

namespace Marks

/-- The marks with one of them set; the lower ones that were never set have no place. -/
def mark (marks : Marks) (index place : Nat) : Marks :=
  (if index < marks.size then marks
    else marks ++ Array.replicate (index + 1 - marks.size) none).set! index (some place)

/-- What is left of later marks where matching goes on from earlier ones. -/
def restore (looping : Bool) (earlier later : Marks) : Marks :=
  if looping then earlier else later.take earlier.size

/-- Where a group begins and ends, if both its marks are set. -/
def borders? (marks : Marks) (index : Nat) : Option (Nat × Nat) :=
  match marks[2 * index - 2]?.join, marks[2 * index - 1]?.join with
  | some start, some stop => some (start, stop)
  | _, _ => none

end Marks

/-- A place reached, with the marks set by then. -/
structure Scan where
  place : Nat
  marks : Marks
deriving Repr, DecidableEq, Inhabited

/-- How matching ends: with a final scan, or with nothing but marks. -/
inductive Outcome
  | found (scan : Scan)
  | missed (marks : Marks)
deriving Repr, DecidableEq, Inhabited

/-- What has to match next. -/
abbrev Next := Scan → Outcome

/-- A body to be matched and what has to match next. -/
abbrev Body := Scan → Next → Outcome

/-- Tries places one after another, taking marks back in between. -/
def tryEach (looping : Bool) (scan : Scan) (next : Next) : List Nat → Marks → Outcome
  | [], marks => .missed marks
  | place :: rest, marks =>
    match next ⟨place, marks⟩ with
    | .found final => .found final
    | .missed later => tryEach looping scan next rest (Marks.restore looping scan.marks later)

/-- A repetition of one test. -/
def manyTests (text : Subject) (passes : Char → Bool) (least : Nat) (most : Option Nat)
    (greed : Greed) (looping : Bool) (scan : Scan) (next : Next) : Outcome :=
  let ends := text.ends false passes least most scan.place
  match greed with
  | .greedy => tryEach looping scan next ends scan.marks
  | .reluctant => tryEach looping scan next ends.reverse scan.marks
  | .possessive =>
    match ends with
    | [] => .missed scan.marks
    | farthest :: _ => next { scan with place := farthest }

/-- A repetition that prefers more rounds. `last` is where the latest round beyond the least count
began; a round that ends there again is the last one. -/
def manyGreedy (body : Body) (least : Nat) (most : Option Nat) (next : Next) :
    (fuel : Nat) → Nat → Option Nat → Next
  | 0, _, _, scan => .missed scan.marks
  | fuel + 1, count, last, scan =>
    if count < least then body scan (manyGreedy body least most next fuel (count + 1) last)
    else if below count most && last != some scan.place then
      match body scan (manyGreedy body least most next fuel (count + 1) (some scan.place)) with
      | .found final => .found final
      | .missed _ => next scan
    else next scan

/-- A repetition that prefers fewer rounds. -/
def manyReluctant (body : Body) (least : Nat) (most : Option Nat) (looping : Bool) (next : Next) :
    (fuel : Nat) → Nat → Option Nat → Next
  | 0, _, _, scan => .missed scan.marks
  | fuel + 1, count, last, scan =>
    if count < least then
      body scan (manyReluctant body least most looping next fuel (count + 1) last)
    else
      match next scan with
      | .found final => .found final
      | .missed later =>
        let marks := Marks.restore looping scan.marks later
        if below count most && last != some scan.place then
          body { scan with marks }
            (manyReluctant body least most looping next fuel (count + 1) (some scan.place))
        else .missed marks

/-- A repetition that gives nothing back. -/
def manyPossessive (body : Body) (least : Nat) (most : Option Nat) (next : Next) :
    (fuel : Nat) → Nat → Option Nat → Next
  | 0, _, _, scan => .missed scan.marks
  | fuel + 1, count, last, scan =>
    if count < least then
      match body scan .found with
      | .found reached => manyPossessive body least most next fuel (count + 1) last reached
      | .missed later => .missed later
    else if below count most && last != some scan.place then
      match body scan .found with
      | .found reached =>
        manyPossessive body least most next fuel (count + 1) (some scan.place) reached
      | .missed _ => next scan
    else next scan

end Plain

open Plain

/-- Matches an expression at a scan and goes on with `next`; `looping` tells whether this is inside
a repetition. -/
def Expr.scan (text : Subject) : Expr → (looping : Bool) → Scan → Next → Outcome
  | .empty, _, scan, next | .keep, _, scan, next => next scan
  | .one test, _, scan, next =>
    match text.step? false test.holds scan.place with
    | some place => next { scan with place }
    | none => .missed scan.marks
  | .assert condition, _, scan, next =>
    if condition.holds text scan.place then next scan else .missed scan.marks
  | .seq first second, looping, scan, next =>
    first.scan text looping scan fun reached => second.scan text looping reached next
  | .alt first second, looping, scan, next =>
    match first.scan text looping scan next with
    | .found final => .found final
    | .missed later =>
      match second.scan text looping ⟨scan.place, Marks.restore looping scan.marks later⟩ next with
      | .found final => .found final
      | .missed later => .missed (Marks.restore looping scan.marks later)
  | .group index body, looping, scan, next =>
    body.scan text looping ⟨scan.place, scan.marks.mark (2 * index - 2) scan.place⟩ fun reached =>
      next ⟨reached.place, reached.marks.mark (2 * index - 1) reached.place⟩
  | .many _ least most greed (.one test), looping, scan, next =>
    manyTests text test.holds least most greed looping scan next
  | .many _ least most greed body, looping, scan, next =>
    let fuel := least + text.size + 2
    match greed with
    | .greedy =>
      manyGreedy (fun scan next => body.scan text true scan next) least most next fuel 0 none scan
    | .reluctant =>
      manyReluctant (fun scan next => body.scan text true scan next) least most looping next fuel
        0 none scan
    | .possessive =>
      manyPossessive (fun scan next => body.scan text looping scan next) least most next fuel
        0 none scan
  | .atomic body, looping, scan, next =>
    match body.scan text looping scan .found with
    | .found reached => next reached
    | .missed later => .missed later
  | .look side positive body, looping, scan, next =>
    let back :=
      match side with
      | .ahead => 0
      | .behind width => width
    if scan.place < back then if positive then .missed scan.marks else next scan
    else
      match body.scan text looping { scan with place := scan.place - back } .found, positive with
      | .found reached, true => next { scan with marks := reached.marks }
      | .missed later, false => next { scan with marks := Marks.restore looping scan.marks later }
      | .found reached, false => .missed reached.marks
      | .missed later, true => .missed later
  | .again manner index, _, scan, next =>
    match scan.marks.borders? index with
    | none => .missed scan.marks
    | some (start, stop) =>
      if stop < start then .missed scan.marks
      else
        match text.skip? false manner.same (text.slice start stop) scan.place with
        | some place => next { scan with place }
        | none => .missed scan.marks

/-- Matches an expression of the plain dialect at the beginning of a text. -/
def Expr.matchPlain? (expr : Expr) (groupCount : Nat) (names : List (String × Nat))
    (text : Subject) : Option Match :=
  match expr.scan text false ⟨0, #[]⟩ .found with
  | .found final =>
    let groups := (List.range groupCount).map fun index => final.marks.borders? (index + 1)
    some (Match.ofBorders text 0 final.place groups names)
  | .missed _ => none

end Rulebook.Pattern
