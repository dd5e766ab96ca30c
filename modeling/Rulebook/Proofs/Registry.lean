import Rulebook.Proofs.History

/-!
# The pattern registry

Capturing a pattern enters it in the registry of the parser, and nothing takes an entry out again.
So under every label the registry has the pattern that was captured last, and that is the pattern of
the rule wherever the rule is one that was made from a pattern. A callable that is captured later
takes the place of the rule, and the registry keeps the pattern.
-/

namespace Rulebook

open Run

variable {world : World} {rounds depth : Nat}

/-- After any requests, some of which may be refused, the registry has under every label the pattern
that was last captured under it, and no entry if none was; the rules have under it what was last
registered. So where that was made from a pattern, the registry has the very pattern of the rule. -/
theorem registry_last_captured (requests : List Request) :
    (newRequested (Kernel.ofDepth rounds (depth + 3)) requests).Gives world fun found after =>
      Reported requests found.2 ∧
      (after.host found.1).rules = some (.record (.rules found.1)) ∧
      (after.host found.1).patterns = some (.record (.patterns found.1)) ∧
      ∀ label,
        after.valueUnder (.patterns found.1) label =
            (lastUnder label (capturedIn (history requests))).map Value.pattern ∧
          match lastUnder label (history requests) with
          | none => after.valueUnder (.rules found.1) label = none
          | some (.given rule) => after.valueUnder (.rules found.1) label = some rule
          | some (.captured pattern) =>
            after.valueUnder (.patterns found.1) label = some (.pattern pattern) ∧
              ∃ serial, after.valueUnder (.rules found.1) label = some (.patternRule serial
                ("capture_" ++ label) (.text label) (.pattern pattern)) := by
  refine Gives.mono (newRequested_gives requests) ?_
  rintro ⟨id, results⟩ after ⟨hreported, hregisters, first, entries, htells, hhistory⟩
  refine ⟨hreported, hregisters.rules, hregisters.patterns, fun label => ?_⟩
  have hpattern : after.valueUnder (.patterns id) label =
      (lastUnder label (capturedIn (history requests))).map Value.pattern := by
    rw [← hhistory]
    exact get?_entries htells.patterns label
  refine ⟨hpattern, ?_⟩
  have hrule := htells.rule_under label
  rw [hhistory] at hrule
  cases hlast : lastUnder label (history requests) with
  | none => rwa [hlast] at hrule
  | some origin =>
      rw [hlast] at hrule
      obtain ⟨serial, hvalue⟩ := hrule
      cases origin with
      | given rule => exact hvalue
      | captured pattern =>
          refine ⟨?_, serial, hvalue⟩
          rw [hpattern, lastUnder_capturedIn hlast]
          rfl

/-- A pattern is captured under a label, and then a callback under the same. -/
def patternThenCallback : List Request :=
  [.capture (.text "x") (.text "^a") "", .capture (.text "x") (.callback 0 "dot" []) ""]

/-- The registry has an entry under a label whose rule is a callback. -/
theorem registry_keeps_replaced :
    (newRequested (Kernel.ofDepth 0 3) patternThenCallback).Gives (World.start.withSerial 1)
      fun found after =>
        after.valueUnder (.rules found.1) "x" = some (.callback 0 "dot" []) ∧
          ¬((after.valueUnder (.patterns found.1) "x").isSome ↔ ∃ serial pattern,
            after.valueUnder (.rules found.1) "x" =
              some (.patternRule serial "capture_x" (.text "x") (.pattern pattern))) := by
  refine Gives.mono (newRequested_gives patternThenCallback) ?_
  rintro ⟨id, results⟩ after ⟨_, _, first, entries, htells, hhistory⟩
  have hcaptured : (lastUnder "x" (capturedIn (history patternThenCallback))).isSome = true := by
    decide +kernel
  have hlast : lastUnder "x" (history patternThenCallback) =
      some (.given (.callback 0 "dot" [])) := by
    rw [history, patternThenCallback, List.filterMap_cons]
    cases (Request.capture (.text "x") (.text "^a") "").accepted? <;> rfl
  have hrule := htells.rule_under "x"
  rw [hhistory, hlast] at hrule
  obtain ⟨_, hvalue⟩ := hrule
  have hpattern := get?_entries htells.patterns "x"
  rw [hhistory] at hpattern
  have hrule : after.valueUnder (.rules id) "x" = some (.callback 0 "dot" []) := hvalue
  have hentry : (after.valueUnder (.patterns id) "x").isSome = true := by
    rw [← Option.isSome_map (f := Value.pattern)] at hcaptured
    rw [← hpattern] at hcaptured
    exact hcaptured
  refine ⟨hrule, fun hagree => ?_⟩
  obtain ⟨serial, pattern, hmade⟩ := hagree.mp hentry
  rw [hrule] at hmade
  cases hmade

end Rulebook
