import Rulebook.Pattern.Compiled

/-!
# Patterns match beginnings

The text of a match begins where matching began, unless an anchor of the extended dialect drops what
was matched so far. In that dialect matching hands a walk from one part of a pattern to the next,
so it is enough that no part moves where the text of the match begins.
-/

namespace Rulebook.Pattern

/-- A pattern matches beginnings of texts. -/
def TakesPrefixes (pattern : Pattern) : Prop :=
  ∀ text found, pattern.match? text = some found → found.text <+: text

namespace Extended

/-- Whatever a search finds has the text of its match begin at a place. -/
def Yields (search : Search (Option Walk)) (kept : Nat) : Prop :=
  ∀ seen final, (search.run seen).1 = some final → final.keptFrom = kept

/-- A body does not move where the text of the match begins: it begins where it does for what
matches next, as long as that goes on from where the body was entered. -/
def Body.Keeps (body : Body) : Prop :=
  ∀ walk next kept, (∀ reached : Walk, reached.keptFrom = walk.keptFrom →
    Yields (next reached) kept) → Yields (body walk next) kept

variable {kept : Nat} {setting : Setting}

theorem yields_none : Yields (return none) kept := by
  rintro seen final ⟨⟩

theorem yields_some {final : Walk} (hfinal : final.keptFrom = kept) :
    Yields (return some final) kept := by
  rintro seen _ ⟨⟩
  exact hfinal

theorem yields_bind {search : Search (Option Walk)} {next : Option Walk → Search (Option Walk)}
    {middle : Nat} (hsearch : Yields search middle) (hnone : Yields (next none) kept)
    (hsome : ∀ reached : Walk, reached.keptFrom = middle → Yields (next (some reached)) kept) :
    Yields (search >>= next) kept := by
  intro seen final hfinal
  have hreached := hsearch seen
  change ((next (search.run seen).1).run (search.run seen).2).1 = _ at hfinal
  cases hresult : (search.run seen).1 with
  | none =>
      rw [hresult] at hfinal
      exact hnone _ final hfinal
  | some reached =>
      rw [hresult] at hfinal
      exact hsome reached (hreached reached hresult) _ final hfinal

theorem yields_get {next : Std.HashSet Crossing → Search (Option Walk)}
    (hnext : ∀ seen, Yields (next seen) kept) : Yields (get >>= next) kept :=
  fun seen final hfinal => hnext seen seen final hfinal

theorem yields_orElse {first second : Search (Option Walk)} (hfirst : Yields first kept)
    (hsecond : Yields second kept) : Yields (orElse first second) kept :=
  yields_bind hfirst hsecond fun _ hreached => yields_some hreached

theorem yields_once {way : Search (Option Walk)} (crossing : Crossing) (hway : Yields way kept) :
    Yields (once setting crossing way) kept := by
  rw [once]
  split
  next => exact hway
  next =>
    refine yields_get fun seen => ?_
    split
    next => exact yields_none
    next =>
      refine yields_bind hway ?_ fun reached hreached => yields_some hreached
      rintro seen final ⟨⟩

theorem yields_manyTests {next : Next} (site : Nat) (walk : Walk)
    (hnext : ∀ place, Yields (next { walk with place }) kept) (places : List Nat) :
    Yields (manyTests setting site walk next places) kept := by
  induction places with
  | nil => exact yields_none
  | cons place rest ih => exact yields_orElse (yields_once _ (hnext place)) ih

theorem yields_first {body : Body} (hbody : body.Keeps) (walk : Walk) :
    Yields (first body walk) walk.keptFrom := by
  refine yields_bind (hbody _ _ walk.keptFrom fun reached hreached => yields_some hreached)
    yields_none fun reached hreached => ?_
  exact yields_some hreached

theorem keeps_manyRounds (setting : Setting) {body : Body} (hbody : body.Keeps) (rounds : Rounds)
    (fuel count : Nat) (inward outward : Bool) :
    Body.Keeps fun walk next =>
      manyRounds setting rounds body next fuel count inward outward walk := by
  -- both ways out of a round, into the next one and past the repetition, keep the beginning
  induction fuel generalizing count inward outward with
  | zero => exact fun _ _ _ _ => yields_none
  | succ fuel ih =>
      intro walk next kept hnext
      unfold manyRounds
      have hround : ∀ (trail : List Nat) (crossing : Crossing) (inward' outward' : Walk → Bool),
          Yields (if inward = true then once setting crossing
            (body { walk with trail } fun reached => manyRounds setting rounds body next fuel
              (count + 1) (inward' reached) (outward' reached) { reached with trail := walk.trail })
            else return none) kept := by
        intro trail crossing inward' outward'
        split
        next => exact yields_once _ (hbody _ _ kept fun reached hreached => ih _ _ _ _ _ kept
          fun further hfurther => hnext further (hfurther.trans hreached))
        next => exact yields_none
      have hleave : ∀ crossing : Crossing,
          Yields (if outward = true then once setting crossing (next walk) else return none)
            kept := by
        intro crossing
        split
        next => exact yields_once _ (hnext walk rfl)
        next => exact yields_none
      cases rounds.greed with
      | reluctant => exact yields_orElse (hleave _) (hround _ _ _ _)
      | greedy => exact yields_orElse (hround _ _ _ _) (hleave _)
      | possessive => exact yields_orElse (hround _ _ _ _) (hleave _)

/-- What is matched by itself is followed by what matches next. -/
theorem yields_first_bind {body : Body} (hbody : body.Keeps) {walk : Walk}
    {next : Option Walk → Search (Option Walk)} (hnone : Yields (next none) kept)
    (hsome : ∀ reached : Walk, reached.keptFrom = walk.keptFrom →
      Yields (next (some reached)) kept) :
    Yields (first body walk >>= next) kept :=
  yields_bind (yields_first hbody walk) hnone hsome

theorem keeps_seq {body after : Body} (hbody : body.Keeps) (hafter : after.Keeps) :
    Body.Keeps fun walk next => body walk fun reached => after reached next :=
  fun _ _ _ hnext => hbody _ _ _ fun _ hreached =>
    hafter _ _ _ fun further hfurther => hnext further (hfurther.trans hreached)

/-- A repetition of one test has a search of its own. -/
theorem keeps_manyOne (backward : Bool) (site least : Nat) (most : Option Nat) (greed : Greed)
    (test : CharTest) : Body.Keeps ((Expr.many site least most greed (.one test)).walk setting
      backward) := by
  intro walk next kept hnext
  have hplace : ∀ place, Yields (next { walk with place }) kept := fun _ => hnext _ rfl
  rw [Expr.walk_manyOne]
  split
  next => exact yields_manyTests site walk hplace _
  next => exact yields_manyTests site walk hplace _
  next => exact yields_none
  next => exact hplace _

theorem keeps_manyBody {backward : Bool} {body : Expr}
    (hbody : Body.Keeps (body.walk setting backward)) (hother : ∀ test, body ≠ .one test)
    (site least : Nat) (most : Option Nat) (greed : Greed) :
    Body.Keeps ((Expr.many site least most greed body).walk setting backward) := by
  have hrounds := keeps_manyRounds setting hbody
  intro walk next kept hnext
  rw [Expr.walk_manyBody hother]
  cases greed with
  | greedy => exact hrounds _ _ _ _ _ walk next kept hnext
  | reluctant => exact hrounds _ _ _ _ _ walk next kept hnext
  | possessive => exact yields_first_bind (hrounds _ _ _ _ _) yields_none hnext

end Extended

open Extended

/-- An expression without the anchor that drops what was matched does not move the beginning. -/
theorem Expr.keeps_walk (setting : Setting) (backward : Bool) {expr : Expr}
    (hkeeps : expr.keepsAll = true) :
    Body.Keeps (expr.walk setting backward) := by
  induction expr generalizing backward with
  | empty => exact fun walk next kept hnext => hnext walk rfl
  | one test =>
      intro walk next kept hnext
      rw [Expr.walk_one]
      split
      next => exact hnext _ rfl
      next => exact yields_none
  | assert condition =>
      intro walk next kept hnext
      rw [Expr.walk_assert]
      split
      next => exact hnext walk rfl
      next => exact yields_none
  | seq first second ihfirst ihsecond =>
      rw [keepsAll, Bool.and_eq_true] at hkeeps
      intro walk next kept hnext
      rw [Expr.walk_seq]
      split
      next => exact keeps_seq (ihsecond true hkeeps.2) (ihfirst true hkeeps.1) _ _ _ hnext
      next => exact keeps_seq (ihfirst false hkeeps.1) (ihsecond false hkeeps.2) _ _ _ hnext
  | alt first second ihfirst ihsecond =>
      rw [keepsAll, Bool.and_eq_true] at hkeeps
      intro walk next kept hnext
      rw [Expr.walk_alt]
      exact yields_orElse (ihfirst backward hkeeps.1 walk next kept hnext)
        (ihsecond backward hkeeps.2 walk next kept hnext)
  | group index body ih =>
      intro walk next kept hnext
      rw [Expr.walk_group]
      exact ih backward hkeeps _ _ _ fun reached hreached => hnext _ hreached
  | many site least most greed body ih =>
      by_cases hone : ∃ test, body = .one test
      · obtain ⟨test, rfl⟩ := hone
        exact keeps_manyOne backward site least most greed test
      · exact keeps_manyBody (ih backward hkeeps) (fun test heq => hone ⟨test, heq⟩)
          site least most greed
  | atomic body ih =>
      intro walk next kept hnext
      rw [Expr.walk_atomic]
      exact yields_first_bind (ih backward hkeeps) yields_none hnext
  | look side positive body ih =>
      intro walk next kept hnext
      rw [Expr.walk_look]
      cases positive with
      | true => exact yields_first_bind (ih _ hkeeps) yields_none fun _ hreached => hnext _ hreached
      | false => exact yields_first_bind (ih _ hkeeps) (hnext walk rfl) fun _ _ => yields_none
  | again manner index =>
      intro walk next kept hnext
      rw [Expr.walk_again]
      split
      next => exact yields_none
      next =>
        split
        next => exact hnext _ rfl
        next => exact yields_none
  | keep => cases hkeeps

/-! ## Matches -/

theorem slice_isPrefix (text : List Char) (stop : Nat) :
    Subject.slice text.toArray 0 stop <+: text := by
  have hslice : Subject.slice text.toArray 0 stop = text.take stop := by
    simp [Subject.slice]
  rw [hslice]
  exact List.take_prefix stop text

theorem takesPrefixes_plain {pattern : Pattern} (hdialect : pattern.dialect = .plain) :
    pattern.TakesPrefixes := by
  intro text found hmatch
  rw [match?, hdialect] at hmatch
  dsimp only [Expr.matchPlain?] at hmatch
  split at hmatch
  next final _ =>
    cases hmatch
    exact slice_isPrefix text final.place
  next => cases hmatch

theorem takesPrefixes_extended {pattern : Pattern} (hdialect : pattern.dialect = .extended)
    (hkeeps : pattern.expr.keepsAll = true) : pattern.TakesPrefixes := by
  intro text found hmatch
  rw [match?, hdialect] at hmatch
  dsimp only [Expr.matchExtended?] at hmatch
  have hyields := pattern.expr.keeps_walk ⟨text.toArray, pattern.expr.recalled⟩ false hkeeps
    (Walk.start pattern.groupCount) (fun reached => return some reached) 0
    fun reached hreached => yields_some hreached
  split at hmatch
  next final hfinal =>
    cases hmatch
    have hkept := hyields ∅ final hfinal
    change Subject.slice text.toArray final.keptFrom final.place <+: text
    rw [hkept]
    exact slice_isPrefix text final.place
  next => cases hmatch

/-- A pattern that does not drop what it matched matches beginnings. -/
theorem takesPrefixes {pattern : Pattern}
    (hpattern : pattern.dialect = .plain ∨ pattern.expr.keepsAll = true) :
    pattern.TakesPrefixes := by
  cases hdialect : pattern.dialect with
  | plain => exact takesPrefixes_plain hdialect
  | extended =>
      rcases hpattern with hplain | hkeeps
      · rw [hdialect] at hplain
        cases hplain
      · exact takesPrefixes_extended hdialect hkeeps

end Rulebook.Pattern
