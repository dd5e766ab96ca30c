import Std.Data.HashSet
import Rulebook.Pattern.Firsts
import Rulebook.Pattern.Subject

/-!
# Matching in the extended dialect

Every expression hands the places it can reach to what has to match next, in the order of its
preference; the first one that is taken wins. A look-behind matches its body backwards from the
place it stands at: the end of a sequence first, and the end of a group before its beginning.

Where a way through a repetition has led nowhere once, the same way leads nowhere again, so it is
remembered and not gone twice. Two ways are the same if they cross the border of a round at one
place, with as much done in the rounds around; the texts of groups do not matter, except to a
pattern that asks for one of them once more, and then nothing is remembered.
-/

namespace Rulebook.Pattern.Extended

/-- A crossing into a round of a repetition, or out of the repetition. -/
structure Crossing where
  site : Nat
  inward : Bool
  place : Nat
  /-- How far the rounds around are, the innermost first. -/
  trail : List Nat
deriving Repr, BEq, ReflBEq, LawfulBEq, Hashable, DecidableEq, Inhabited

/-- A place reached and what was kept on the way there. -/
structure Walk where
  place : Nat
  /-- Where the text of the match begins. -/
  keptFrom : Nat
  /-- Where each group begins and ends. -/
  groups : Array (Option Nat × Option Nat)
  /-- How often a border has changed of a group that is asked for once more. -/
  changes : Nat
  /-- How far the rounds of the repetitions around are, the innermost first. -/
  trail : List Nat
deriving Repr, DecidableEq, Inhabited

/-- A search remembers the crossings that led nowhere. -/
abbrev Search := StateM (Std.HashSet Crossing)

/-- What has to match next. -/
abbrev Next := Walk → Search (Option Walk)

/-- A body to be matched and what has to match next. -/
abbrev Body := Walk → Next → Search (Option Walk)

/-- What stays the same during a search. -/
structure Setting where
  text : Subject
  /-- The groups that the pattern asks for once more. -/
  recalled : List Nat
deriving Repr, Inhabited

/-- Tries one way and, where it leads nowhere, another. -/
def orElse (first second : Search (Option Walk)) : Search (Option Walk) := do
  match ← first with
  | some final => return some final
  | none => second

namespace Walk

/-- The way at the beginning of a text. -/
def start (groupCount : Nat) : Walk := ⟨0, 0, Array.replicate groupCount (none, none), 0, []⟩

/-- Sets where a group begins or, with `first` false, where it ends. -/
def border (walk : Walk) (setting : Setting) (index : Nat) (first : Bool) : Walk :=
  let (start, stop) := (walk.groups[index - 1]?).getD (none, none)
  let old := if first then start else stop
  let new := if first then (some walk.place, stop) else (start, some walk.place)
  { walk with
    groups := walk.groups.set! (index - 1) new
    changes :=
      if old != some walk.place && setting.recalled.contains index then walk.changes + 1
      else walk.changes }

/-- Where a group begins and ends, if it took part. -/
def borders? (walk : Walk) (index : Nat) : Option (Nat × Nat) :=
  match walk.groups[index - 1]? with
  | some (some start, some stop) => some (start, stop)
  | _ => none

end Walk

/-- Goes a way unless it is known to lead nowhere. -/
def once (setting : Setting) (crossing : Crossing) (way : Search (Option Walk)) :
    Search (Option Walk) := do
  if !setting.recalled.isEmpty then way
  else if (← get).contains crossing then return none
  else
    match ← way with
    | some final => return some final
    | none =>
      modify (·.insert crossing)
      return none

/-- A repetition of one test, which may end at the given places. -/
def manyTests (setting : Setting) (site : Nat) (walk : Walk) (next : Next) :
    List Nat → Search (Option Walk)
  | [] => return none
  | place :: rest =>
    orElse (once setting ⟨site, false, place, walk.trail⟩ (next { walk with place }))
      (manyTests setting site walk next rest)

/-- What is fixed about a repetition. -/
structure Rounds where
  site : Nat
  least : Nat
  most : Option Nat
  greed : Greed
  /-- Whether a round may end where it began. -/
  mayStay : Bool
deriving Repr, DecidableEq, Inhabited

/-- How far a repetition is when a round begins: as many rounds as still matter and, if a round
that stays in place matters, where it began. -/
def Rounds.level (rounds : Rounds) (count place : Nat) : List Nat :=
  (if rounds.most.isNone then min count rounds.least else count) ::
    (if rounds.mayStay then [place] else [])

/-- The rounds of a repetition from the end of one of them on. Another round follows only if the
last one changed something, and what follows the repetition comes next if that round changed
nothing or there have been enough. -/
def manyRounds (setting : Setting) (rounds : Rounds) (body : Body) (next : Next) :
    (fuel : Nat) → (count : Nat) → (inward outward : Bool) → Walk → Search (Option Walk)
  | 0, _, _, _, _ => return none
  | fuel + 1, count, inward, outward, walk =>
    let trail := rounds.level count walk.place ++ walk.trail
    let round := fun (_ : Unit) =>
      if inward then
        once setting ⟨rounds.site, true, walk.place, trail⟩ <|
          body { walk with trail } fun reached =>
            let changed := reached.place != walk.place || reached.changes != walk.changes
            manyRounds setting rounds body next fuel (count + 1)
              (changed && below (count + 1) rounds.most)
              (!changed || rounds.least ≤ count + 1) { reached with trail := walk.trail }
      else return none
    let leave := fun (_ : Unit) =>
      if outward then once setting ⟨rounds.site, false, walk.place, walk.trail⟩ (next walk)
      else return none
    match rounds.greed with
    | .reluctant => orElse (leave ()) (round ())
    | _ => orElse (round ()) (leave ())

/-- Only the first way through a body is gone. -/
def first (body : Body) (walk : Walk) : Search (Option Walk) := do
  match ← body { walk with trail := [] } fun reached => return some reached with
  | some reached => return some { reached with trail := walk.trail }
  | none => return none

end Extended

open Extended

/-- Matches an expression and goes on with `next`, `backward` or forward. -/
def Expr.walk (setting : Setting) : Expr → (backward : Bool) → Walk → Next → Search (Option Walk)
  | .empty, _, walk, next => next walk
  | .one test, backward, walk, next =>
    match setting.text.step? backward test.holds walk.place with
    | some place => next { walk with place }
    | none => return none
  | .assert condition, _, walk, next =>
    if condition.holds setting.text walk.place then next walk else return none
  | .seq first second, backward, walk, next =>
    if backward then
      second.walk setting true walk fun reached => first.walk setting true reached next
    else first.walk setting false walk fun reached => second.walk setting false reached next
  | .alt first second, backward, walk, next =>
    orElse (first.walk setting backward walk next) (second.walk setting backward walk next)
  | .group index body, backward, walk, next =>
    body.walk setting backward (walk.border setting index !backward) fun reached =>
      next (reached.border setting index backward)
  | .many site least most greed (.one test), backward, walk, next =>
    let ends := setting.text.ends backward test.holds least most walk.place
    match greed with
    | .greedy => manyTests setting site walk next ends
    | .reluctant => manyTests setting site walk next ends.reverse
    | .possessive =>
      match ends with
      | [] => return none
      | place :: _ => next { walk with place }
  | .many site least most greed body, backward, walk, next =>
    let rounds : Rounds := ⟨site, least, most, greed, (body.width fun _ => .any).least == 0⟩
    let repetition := fun walk next =>
      manyRounds setting rounds (fun walk next => body.walk setting backward walk next) next
        (least + 2 * setting.text.size + 64) 0 (most != some 0) (least == 0) walk
    match greed with
    | .possessive => do
      match ← first repetition walk with
      | some reached => next reached
      | none => return none
    | _ => repetition walk next
  | .atomic body, backward, walk, next => do
    match ← first (fun walk next => body.walk setting backward walk next) walk with
    | some reached => next reached
    | none => return none
  | .look side positive body, _, walk, next => do
    let backward := side != .ahead
    match ← first (fun walk next => body.walk setting backward walk next) walk, positive with
    | some reached, true => next { reached with place := walk.place }
    | none, false => next walk
    | _, _ => return none
  | .again manner index, backward, walk, next =>
    match walk.borders? index with
    | none => return none
    | some (start, stop) =>
      match setting.text.skip? backward manner.same (setting.text.slice start stop) walk.place with
      | some place => next { walk with place }
      | none => return none
  | .keep, _, walk, next => next { walk with keptFrom := walk.place }

section Walk

variable {setting : Setting} {backward : Bool} {walk : Walk} {next : Next}

theorem Expr.walk_one {test : CharTest} :
    (Expr.one test).walk setting backward walk next =
      match setting.text.step? backward test.holds walk.place with
      | some place => next { walk with place }
      | none => return none := rfl

theorem Expr.walk_assert {condition : Anchor} :
    (Expr.assert condition).walk setting backward walk next =
      if condition.holds setting.text walk.place then next walk else return none := rfl

theorem Expr.walk_seq {one other : Expr} :
    (Expr.seq one other).walk setting backward walk next =
      if backward then
        other.walk setting true walk fun reached => one.walk setting true reached next
      else one.walk setting false walk fun reached => other.walk setting false reached next := rfl

theorem Expr.walk_alt {one other : Expr} :
    (Expr.alt one other).walk setting backward walk next =
      orElse (one.walk setting backward walk next) (other.walk setting backward walk next) := rfl

theorem Expr.walk_group {index : Nat} {body : Expr} :
    (Expr.group index body).walk setting backward walk next =
      body.walk setting backward (walk.border setting index !backward) fun reached =>
        next (reached.border setting index backward) := rfl

/-- A repetition of one test is matched by where it may end. -/
theorem Expr.walk_manyOne {site least : Nat} {most : Option Nat} {greed : Greed}
    {test : CharTest} :
    (Expr.many site least most greed (.one test)).walk setting backward walk next =
      match greed, setting.text.ends backward test.holds least most walk.place with
      | .greedy, ends => manyTests setting site walk next ends
      | .reluctant, ends => manyTests setting site walk next ends.reverse
      | .possessive, [] => return none
      | .possessive, place :: _ => next { walk with place } := by
  cases greed with
  | greedy => rfl
  | reluctant => rfl
  | possessive =>
      change (match setting.text.ends backward test.holds least most walk.place with
        | [] => return none
        | place :: _ => next { walk with place }) = _
      cases setting.text.ends backward test.holds least most walk.place <;> rfl

/-- A repetition of anything else is matched round by round. -/
theorem Expr.walk_manyBody {site least : Nat} {most : Option Nat} {greed : Greed} {body : Expr}
    (hother : ∀ test, body ≠ .one test) :
    (Expr.many site least most greed body).walk setting backward walk next =
      let rounds : Rounds := ⟨site, least, most, greed, (body.width fun _ => .any).least == 0⟩
      let repetition := fun walk next =>
        manyRounds setting rounds (body.walk setting backward) next
          (least + 2 * setting.text.size + 64) 0 (most != some 0) (least == 0) walk
      match greed with
      | .possessive => do
        match ← first repetition walk with
        | some reached => next reached
        | none => return none
      | _ => repetition walk next := by
  cases body with
  | one test => exact absurd rfl (hother test)
  | _ => cases greed <;> rfl

theorem Expr.walk_atomic {body : Expr} :
    (Expr.atomic body).walk setting backward walk next = do
      match ← first (body.walk setting backward) walk with
      | some reached => next reached
      | none => return none := rfl

theorem Expr.walk_look {side : Side} {positive : Bool} {body : Expr} :
    (Expr.look side positive body).walk setting backward walk next = do
      match ← first (body.walk setting (side != .ahead)) walk, positive with
      | some reached, true => next { reached with place := walk.place }
      | none, false => next walk
      | _, _ => return none := rfl

theorem Expr.walk_again {manner : Manner} {index : Nat} :
    (Expr.again manner index).walk setting backward walk next =
      match walk.borders? index with
      | none => return none
      | some (start, stop) =>
        match setting.text.skip? backward manner.same (setting.text.slice start stop)
          walk.place with
        | some place => next { walk with place }
        | none => return none := rfl

end Walk

/-- Matches an expression of the extended dialect at the beginning of a text. -/
def Expr.matchExtended? (expr : Expr) (groupCount : Nat) (names : List (String × Nat))
    (text : Subject) : Option Match :=
  let setting : Setting := ⟨text, expr.recalled⟩
  let search := expr.walk setting false (Walk.start groupCount) fun reached => return some reached
  match (search.run ∅).1 with
  | some final =>
    let groups := (List.range groupCount).map fun index => final.borders? (index + 1)
    some (Match.ofBorders text final.keptFrom final.place groups names)
  | none => none

end Rulebook.Pattern
