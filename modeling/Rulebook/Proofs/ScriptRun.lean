import Mathlib.Data.List.Forall2
import Rulebook.Proofs.Method

/-!
# Running scripts

How the statements of a callback run that send messages to the object it is called with. Each
statement is described by what the message does and by the one variable it sets; the frame of a
callback is gone when it ends.
-/

namespace Rulebook

open Run Script

/-- The world with a variable of the callback that is running set. -/
def World.setLocal (world : World) (name : String) (value : Value) : World :=
  world.withFrame (world.frame.insert name value)

theorem frame_setLocal_self {world : World} {name : String} {value : Value} :
    (world.setLocal name value).frame.get? name = some value :=
  (Table.get?_insert _ _ _ _).trans (if_pos rfl)

/-- A term has a value in a world, and looking at it changes nothing. -/
def Term.Denotes (term : Term) (world : World) (value : Value) : Prop :=
  ∀ serial, (evaluate term).outcome (world.withSerial serial) =
    (.ok value, world.withSerial serial)

variable {world : World} {kernel : Kernel}

/-! ## Terms -/

theorem Term.denotes_text (text : String) : (Term.datum (.text text)).Denotes world (.text text) :=
  fun _ => rfl

theorem Term.denotes_null : (Term.datum .null).Denotes world .null :=
  fun _ => rfl

theorem getVariable_look {name : String} {value : Value} (hlocal : isGlobal name = false)
    (hvalue : world.frame.get? name = some value) (serial : Nat) :
    (getVariable name).outcome (world.withSerial serial) =
      (.ok value, world.withSerial serial) := by
  have hvalue' : (world.withSerial serial).frame.get? name = some value := hvalue
  rw [getVariable, outcome_bind_ok (outcome_get _)]
  simp only [hlocal, Bool.false_eq_true, if_false, hvalue', outcome_pure]

theorem Term.denotes_var {name : String} {value : Value} (hlocal : isGlobal name = false)
    (hvalue : world.frame.get? name = some value) : (Term.var name).Denotes world value :=
  getVariable_look hlocal hvalue

theorem evaluateAll_look {terms : List Term} {values : List Value}
    (hterms : List.Forall₂ (fun term value => Term.Denotes term world value) terms values)
    (serial : Nat) :
    (evaluateAll terms).outcome (world.withSerial serial) =
      (.ok values, world.withSerial serial) := by
  induction hterms with
  | nil => rfl
  | @cons term value terms values hterm _ ih =>
      rw [evaluateAll, outcome_bind_ok (hterm serial), outcome_bind_ok ih]
      rfl

/-- Whether a value is there. -/
def Value.isPresent : Value → Bool
  | .null => false
  | _ => true

theorem present_look {term : Term} {value : Value} (hterm : term.Denotes world value)
    (serial : Nat) :
    (holds (.present term)).outcome (world.withSerial serial) =
      (.ok value.isPresent, world.withSerial serial) := by
  rw [holds, outcome_bind_ok (hterm serial)]
  cases value <;> rfl

theorem absent_look {term : Term} {value : Value} (hterm : term.Denotes world value)
    (serial : Nat) :
    (holds (.not (.present term))).outcome (world.withSerial serial) =
      (.ok (!value.isPresent), world.withSerial serial) := by
  rw [holds, outcome_bind_ok (present_look hterm serial)]
  rfl

/-! ## Statements -/

section Statements

variable {rest : List Stmt} {post : Except Fault Flow → World → Prop}

theorem runAll_give {term : Term} {value : Value} (hterm : term.Denotes world value)
    (hpost : post (.ok (.gave value)) world) :
    (runAll kernel (.give term :: rest)).Ends world post := by
  rw [runAll, run]
  refine Ends.look (.gave value) (fun serial => ?_) (Ends.pure hpost)
  exact outcome_bind_ok (hterm serial)

theorem act_send {id : HostId} {object method : String} {terms : List Term} {values : List Value}
    {post : Except Fault Value → World → Prop} (hlocal : isGlobal object = false)
    (hobject : world.frame.get? object = some (.host id))
    (hterms : List.Forall₂ (fun term value => Term.Denotes term world value) terms values)
    (hsend : (kernel.sendHost id method values).Ends world post) :
    (act kernel (.send object method terms [])).Ends world post := by
  rw [act]
  refine Ends.look values (evaluateAll_look hterms) ?_
  refine Ends.look [] (fun _ => rfl) ?_
  exact Ends.look (.host id) (getVariable_look hlocal hobject) hsend

theorem runAll_store {action : Action} {name : String} {mid : Value → World → Prop}
    (hlocal : isGlobal name = false) (hact : (act kernel action).Gives world mid)
    (hrest : ∀ value after, mid value after →
      (runAll kernel rest).Ends (after.setLocal name value) post) :
    (runAll kernel (.act action (some name) :: rest)).Ends world post := by
  have hset : (actInto kernel action (some name)).Gives world fun value after =>
      ∃ before, mid value before ∧ after = before.setLocal name value := by
    refine Gives.bind hact fun value before hbefore => ?_
    refine Ends.change () (before.setLocal name value) (fun serial => ?_) ?_
    · simp only [setVariable, outcome_modify, hlocal, Bool.false_eq_true, if_false]
      rfl
    · exact Gives.pure ⟨before, hbefore, rfl⟩
  have hrun : (Script.run kernel (.act action (some name))).Gives world fun flow after =>
      flow = .onward ∧ ∃ value before, mid value before ∧ after = before.setLocal name value := by
    rw [Script.run]
    refine Gives.bind hset fun value after hafter => ?_
    exact Gives.pure ⟨rfl, value, hafter⟩
  rw [runAll]
  refine Gives.bind hrun ?_
  rintro _ _ ⟨rfl, value, before, hbefore, rfl⟩
  exact hrest value before hbefore

theorem runAll_drop {action : Action} {mid : Except Fault Value → World → Prop}
    (hact : (act kernel action).Ends world mid)
    (hrest : ∀ value after, mid (.ok value) after → (runAll kernel rest).Ends after post)
    (hfault : ∀ fault after, mid (.error fault) after → post (.error fault) after) :
    (runAll kernel (.act action none :: rest)).Ends world post := by
  have hdrop : (Script.run kernel (.act action none)).Ends world fun result after =>
      match result with
      | .ok flow => flow = .onward ∧ ∃ value, mid (.ok value) after
      | .error fault => mid (.error fault) after := by
    rw [Script.run, actInto, bind_assoc]
    refine Ends.bind hact ?_ fun fault after hmid => hmid
    intro value after hmid
    exact Ends.pure ⟨rfl, value, hmid⟩
  rw [runAll]
  refine Ends.bind hdrop ?_ fun fault after hmid => hfault fault after hmid
  rintro _ after ⟨rfl, value, hmid⟩
  exact hrest value after hmid

theorem runAll_append (first second : List Stmt) :
    runAll kernel (first ++ second) = (do
      match ← runAll kernel first with
      | .onward => runAll kernel second
      | flow => return flow) := by
  induction first with
  | nil => simp [runAll]
  | cons statement rest ih =>
      rw [List.cons_append, runAll, runAll, bind_assoc]
      congr 1
      funext flow
      cases flow with
      | onward => exact ih
      | left => simp
      | gave result => simp

/-- A branch on a condition that is settled goes on as if the branch stood in its place. -/
theorem runAll_branch {condition : Cond} {yes no : List Stmt} (verdict : Bool)
    (hcondition : ∀ serial, (holds condition).outcome (world.withSerial serial) =
      (.ok verdict, world.withSerial serial))
    (hbranch : (runAll kernel ((if verdict then yes else no) ++ rest)).Ends world post) :
    (runAll kernel (.branch condition yes no :: rest)).Ends world post := by
  -- a branch that returns leaves the statements behind it out, as appending them does
  rw [runAll_append] at hbranch
  rw [runAll, Script.run, bind_assoc]
  refine Ends.look verdict hcondition ?_
  cases verdict <;> exact hbranch

end Statements

/-! ## Callbacks -/

/-- A run in a frame of its own leaves the present frame as it was, whether it succeeds or fails. -/
theorem inFrame_outcome {α : Type} {run : Run α} {result : Except Fault α} {after : World}
    {frame : Table String Value} (hrun : run.outcome (world.withFrame frame) = (result, after)) :
    (inFrame frame run).outcome world = (result, after.withFrame world.frame) := by
  have hobserved : (observe run).outcome (world.withFrame frame) = (.ok result, after) := by
    rw [outcome_observe, hrun]
  rw [inFrame, outcome_bind_ok (outcome_get _), outcome_bind_ok (outcome_modify _ _)]
  refine (outcome_bind_ok hobserved).trans ?_
  rw [outcome_bind_ok (outcome_modify _ _)]
  cases result <;> rfl

theorem inFrame_ends {α : Type} {run : Run α} {post : Except Fault α → World → Prop}
    (frame : Table String Value)
    (hrun : run.Ends (world.withFrame frame) fun result after =>
      post result (after.withFrame world.frame)) : (inFrame frame run).Ends world post := by
  intro serial
  obtain ⟨result, after, later, houtcome, hpost⟩ := hrun serial
  have hframed : (inFrame frame run).outcome (world.withSerial serial) =
      (result, (after.withSerial later).withFrame world.frame) := inFrame_outcome houtcome
  exact ⟨result, after.withFrame world.frame, later, hframed, hpost⟩

/-- What a callback gives whose statements end in some way. -/
def Script.Flow.result : Flow → Value
  | .gave value => value
  | _ => .null

theorem callback_ends {body : List Stmt} {values : List Value}
    {post : Except Fault Value → World → Prop}
    (hrun : (runAll kernel body).Ends (world.withFrame (frameOf values)) fun result after =>
      post (result.map Flow.result) (after.withFrame world.frame)) :
    (callback kernel body values).Ends world post := by
  have hframe : (inFrame (frameOf values) (runAll kernel body)).Ends world fun result after =>
      post (result.map Flow.result) after := inFrame_ends (frameOf values) hrun
  rw [callback]
  refine Ends.bind hframe ?_ ?_
  · intro flow after hpost
    cases flow <;> exact Ends.pure hpost
  · exact fun fault after hpost => hpost

end Rulebook
