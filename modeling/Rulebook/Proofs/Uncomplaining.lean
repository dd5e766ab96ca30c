import Rulebook.Proofs.Ends
import Rulebook.Proofs.QuietParts

/-!
# Looking is no complaint

Looking up what a value holds, what its attributes are or whether it equals another can fail, but
never as a complaint about the syntax of an input. So a complaint comes from where one is made.
-/

namespace Rulebook

/-- Whether a fault is reported as one of syntax. -/
def Fault.isSyntax (fault : Fault) : Bool := fault.className == "SyntaxError"

namespace Run

/-- A run never complains about syntax. -/
def Uncomplaining {α : Type} (run : Run α) : Prop :=
  ∀ world fault after, run.outcome world = (.error fault, after) → fault.isSyntax = false

section Rules

variable {α β : Type}

theorem uncomplaining_pure (value : α) : (pure value : Run α).Uncomplaining := by
  rintro world fault after ⟨⟩

theorem uncomplaining_fail {fault : Fault} (hfault : fault.isSyntax = false) :
    (fail fault : Run α).Uncomplaining := by
  rintro world _ after ⟨⟩
  exact hfault

theorem uncomplaining_bind {first : Run α} {next : α → Run β} (hfirst : first.Uncomplaining)
    (hnext : ∀ value, (next value).Uncomplaining) : (first >>= next).Uncomplaining := by
  intro world fault after houtcome
  rw [outcome_bind] at houtcome
  split at houtcome
  next value middle _ => exact hnext value middle fault after houtcome
  next found middle hfound =>
    cases houtcome
    exact hfirst world _ _ hfound

theorem uncomplaining_ite {condition : Prop} [Decidable condition] {yes no : Run α}
    (hyes : yes.Uncomplaining) (hno : no.Uncomplaining) :
    (if condition then yes else no).Uncomplaining := by
  split
  next => exact hyes
  next => exact hno

/-- What a look gives that cannot fail. -/
theorem uncomplaining_look {look : World → α} {next : α → Run β}
    (hnext : ∀ value, (next value).Uncomplaining) :
    ((do return look (← get)) >>= next : Run β).Uncomplaining :=
  uncomplaining_bind (by rintro world fault after ⟨⟩) hnext

theorem uncomplaining_lacks (value : Value) (name : String) :
    (lacks value name : Run α).Uncomplaining := by
  rintro world _ after ⟨⟩
  rfl

end Rules

/-! ## What is in a value -/

theorem uncomplaining_keyOf (value : Value) : (keyOf value).Uncomplaining := by
  unfold keyOf
  split
  next => exact uncomplaining_pure _
  next => exact uncomplaining_fail rfl

theorem isSyntax_strangeGroup (pattern : Pattern) (hasKey isBytes : Bool) :
    (strangeGroup pattern hasKey isBytes).isSyntax = false := by
  unfold strangeGroup
  split
  next => split <;> rfl
  next => split <;> rfl

theorem uncomplaining_groupOf (pattern : Pattern) (found : Pattern.Match) (index : Value) :
    (groupOf pattern found index).Uncomplaining := by
  unfold groupOf
  dsimp only
  split
  next => exact uncomplaining_pure _
  next => exact uncomplaining_fail rfl
  next => exact uncomplaining_fail rfl
  next => exact uncomplaining_fail rfl
  next => exact uncomplaining_fail (isSyntax_strangeGroup _ _ _)
  next => exact uncomplaining_fail (isSyntax_strangeGroup _ _ _)

theorem uncomplaining_lengthOf (value : Value) : (lengthOf value).Uncomplaining := by
  unfold lengthOf
  split
  next => exact uncomplaining_look fun _ => uncomplaining_pure _
  next => exact uncomplaining_look fun _ => uncomplaining_pure _
  next => exact uncomplaining_pure _
  next => exact uncomplaining_pure _
  next => exact uncomplaining_ite (uncomplaining_pure _) (uncomplaining_fail rfl)
  next => exact uncomplaining_fail rfl

theorem uncomplaining_atIndex (values : Array Value) {missing : Fault} (index : Value)
    (hmissing : missing.isSyntax = false) : (atIndex values missing index).Uncomplaining := by
  refine uncomplaining_bind ?_ fun _ => uncomplaining_pure _
  unfold placeAt
  split
  next => exact uncomplaining_fail rfl
  next =>
    refine uncomplaining_ite (uncomplaining_fail rfl) ?_
    split
    next => exact uncomplaining_pure _
    next => exact uncomplaining_fail hmissing

theorem uncomplaining_getItem (value index : Value) : (getItem value index).Uncomplaining := by
  unfold getItem
  split
  next => exact uncomplaining_look fun _ => uncomplaining_atIndex _ _ rfl
  next => exact uncomplaining_atIndex _ _ rfl
  next => exact uncomplaining_atIndex _ _ rfl
  next =>
    refine uncomplaining_bind (uncomplaining_keyOf _) fun key => uncomplaining_look fun record => ?_
    split
    next => exact uncomplaining_pure _
    next => exact uncomplaining_look fun _ => uncomplaining_fail rfl
  next => exact uncomplaining_groupOf _ _ _
  next => exact uncomplaining_fail rfl

theorem uncomplaining_restOf (value : Value) (place : Nat) :
    (restOf value place).Uncomplaining := by
  unfold restOf
  split
  next => exact uncomplaining_pure _
  next => exact uncomplaining_pure _
  next => exact uncomplaining_look fun _ => by rintro world fault after ⟨⟩
  next =>
    refine uncomplaining_ite ?_ (uncomplaining_fail (isSyntax_strangeGroup _ _ _))
    rintro world fault after ⟨⟩
  next => exact uncomplaining_fail rfl

theorem uncomplaining_takeLast (value : Value) : (takeLast value).Uncomplaining := by
  unfold takeLast
  split
  next ref =>
    refine uncomplaining_look fun items => ?_
    split
    next => rintro world fault after ⟨⟩
    next => exact uncomplaining_fail rfl
  next => exact uncomplaining_fail rfl
  next => exact uncomplaining_lacks _ _

theorem uncomplaining_equal (one other : Value) : (equal one other).Uncomplaining := by
  refine uncomplaining_bind (by rintro world fault after ⟨⟩) fun world => ?_
  split
  next => exact uncomplaining_pure _
  next => exact uncomplaining_fail rfl

/-! ## Attributes -/

theorem uncomplaining_methodOf (receiver : Value) (name : String) :
    (methodOf receiver name).Uncomplaining := by
  rintro world fault after ⟨⟩

theorem uncomplaining_nodeAttribute (id : NodeId) (name : String) :
    (nodeAttribute id name).Uncomplaining := by
  refine uncomplaining_look fun cell => uncomplaining_ite ?_ (uncomplaining_ite ?_ ?_)
  · unfold entryOrNull
    split
    next =>
      exact uncomplaining_bind (uncomplaining_keyOf _) fun _ =>
        uncomplaining_look fun _ => uncomplaining_pure _
    next => exact uncomplaining_lacks _ _
  · exact uncomplaining_look fun _ =>
      uncomplaining_ite (uncomplaining_getItem _ _) (uncomplaining_pure _)
  · split
    next => exact uncomplaining_pure _
    next => exact uncomplaining_ite (uncomplaining_methodOf _ _) (uncomplaining_lacks _ _)

theorem uncomplaining_hostPart (id : HostId) (name : String) :
    (hostPart id name).Uncomplaining := by
  refine uncomplaining_look fun host => ?_
  split
  next => exact uncomplaining_pure _
  next => exact uncomplaining_lacks _ _

theorem uncomplaining_cursor (id : HostId) (lacking : String) :
    (Run.cursor id lacking).Uncomplaining := by
  refine uncomplaining_look fun host => ?_
  split
  next => exact uncomplaining_pure _
  next => exact uncomplaining_lacks _ _

theorem uncomplaining_hostAttribute (id : HostId) (name : String) :
    (hostAttribute id name).Uncomplaining := by
  refine uncomplaining_look fun host => uncomplaining_ite ?_ ?_
  · exact uncomplaining_bind (uncomplaining_hostPart _ _) fun _ =>
      uncomplaining_bind (uncomplaining_cursor _ _) fun _ => uncomplaining_restOf _ _
  · split
    next => exact uncomplaining_pure _
    next => exact uncomplaining_methodOf _ _
    next => exact uncomplaining_lacks _ _

theorem uncomplaining_extra (value : Value) (name : String) :
    (extra value name).Uncomplaining := by
  refine uncomplaining_bind (by rintro world fault after ⟨⟩) fun world => ?_
  split
  next => exact uncomplaining_pure _
  next => exact uncomplaining_lacks _ _

theorem uncomplaining_attributeOf (value : Value) (name : String) :
    (attributeOf value name).Uncomplaining := by
  fun_induction attributeOf value name with
  | case1 => exact uncomplaining_nodeAttribute _ _
  | case2 => exact uncomplaining_hostAttribute _ _
  | case8 => exact uncomplaining_methodOf _ _
  | case10 _ _ _ _ ih => exact ih
  | case11 => exact uncomplaining_lacks _ _
  | case12 => exact uncomplaining_extra _ _
  | _ => exact uncomplaining_pure _

end Run

end Rulebook
