import Rulebook.Proofs.Quiet

/-!
# Quiet parts of methods and scripts

The parts of methods, functions and scripts that only look at the world, or make values: compiling,
asking where a parser is, finding a rule, drawing a picture, evaluating an expression. What is left
over are the few methods that change nodes, hosts or lists.
-/

namespace Rulebook

open Run

/-! ## Parsers -/

@[simp] theorem quiet_flagLetters (flags : Value) : (flagLetters flags).Quiet := by
  refine quiet_bind (quiet_valuesIn flags) fun values => ?_
  refine quiet_bind (quiet_mapM (fun value => ?_) values) fun _ => quiet_pure _
  refine quiet_bind (quiet_keyOf value) fun key => ?_
  split <;> simp

@[simp] theorem quiet_compile (dialect : Dialect) (source : String) (binary : Bool)
    (given : Flags) : (Run.compile dialect source binary given).Quiet := by
  unfold Run.compile
  split <;> simp

@[simp] theorem quiet_compilePattern (source flags : Value) :
    (compilePattern source flags).Quiet := by
  unfold compilePattern
  split
  next => exact quiet_pure _
  next =>
    refine quiet_bind (quiet_flagLetters flags) fun letters => ?_
    split <;> simp

namespace Parser

@[simp] theorem quiet_location (id : HostId) : (location id).Quiet :=
  quiet_bind (quiet_cursor _ _) fun _ => quiet_locationOf _

@[simp] theorem quiet_getRule (id : HostId) (label : Value) : (getRule id label).Quiet := by
  refine quiet_bind (quiet_hostPart _ _) fun rules => ?_
  refine quiet_bind (quiet_observe (quiet_getItem rules label)) fun found => ?_
  split
  next => exact quiet_pure _
  next => exact quiet_bind (quiet_plainText _) fun _ => quiet_fail _
  next => exact quiet_fail _

@[simp] theorem quiet_charsLeft (id : HostId) (binary : Bool) : (charsLeft id binary).Quiet := by
  refine quiet_bind (quiet_hostPart _ _) fun input => quiet_bind (quiet_cursor _ _) fun cursor => ?_
  split
  next => exact quiet_pure _
  next => exact quiet_pure _
  next => exact quiet_bind (quiet_restOf _ _) fun _ => quiet_fail _

@[simp] theorem quiet_prev (id : HostId) : (prev id).Quiet :=
  quiet_bind (quiet_hostPart _ _) fun _ => quiet_getItem _ _

@[simp] theorem quiet_snippet (id : HostId) : (snippet id).Quiet := by
  refine quiet_bind (quiet_hostPart _ _) fun input => quiet_bind (quiet_cursor _ _) fun cursor => ?_
  split <;> simp

@[simp] theorem quiet_pointer (id : HostId) (location : Value) : (pointer id location).Quiet :=
  quiet_bind (quiet_attributeOf _ _) fun _ => quiet_bind (quiet_plainText _) fun _ =>
    quiet_bind (quiet_attributeOf _ _) fun _ => quiet_bind (quiet_plainText _) fun _ =>
      quiet_bind (quiet_snippet _) fun _ => quiet_pure _

@[simp] theorem quiet_itemReached (input : Value) (place : Nat) :
    (itemReached input place).Quiet := by
  unfold itemReached
  split
  next => split <;> simp
  next => exact quiet_getItem _ _

@[simp] theorem quiet_unclosed (stack : Value) : (unclosed stack).Quiet :=
  quiet_bind (quiet_getItem _ _) fun _ => quiet_bind (quiet_attributeOf _ _) fun _ =>
    quiet_bind (quiet_plainText _) fun _ => quiet_fail _

end Parser

@[simp] theorem quiet_bindArgs (args : Args) (params : List Param) : (args.bind params).Quiet := by
  unfold Args.bind
  split <;> simp

@[simp] theorem quiet_copyOptions (options : Value) : (copyOptions options).Quiet :=
  quiet_bind (quiet_isSet _) fun _ => quiet_ite (quiet_recordFrom _) (quiet_pure _)

/-! ## Capturing and functions -/

@[simp] theorem quiet_makePatternRule (label pattern : Value) :
    (makePatternRule label pattern).Quiet :=
  quiet_bind (quiet_plainText _) fun _ => quiet_bind quiet_fresh fun _ => quiet_pure _

@[simp] theorem quiet_resolveKind (host expected : Value) : (resolveKind host expected).Quiet := by
  refine quiet_bind quiet_get fun world => ?_
  split
  next => exact quiet_fail _
  next =>
    split
    next => exact quiet_pure _
    next => exact quiet_ite (quiet_pure _) (quiet_fail _)
    next => exact quiet_bind (quiet_attributeOf _ _) fun _ =>
      quiet_bind (quiet_plainText _) fun _ => quiet_fail _
  next => exact quiet_fail _

namespace Function

@[simp] theorem quiet_kindOf (word : Value) : (kindOf word).Quiet := by
  unfold kindOf
  split
  next => exact quiet_pure _
  next => exact quiet_pure _
  next => exact quiet_pure _
  next => exact quiet_bind (quiet_spell _) fun _ => quiet_fail _

@[simp] theorem quiet_kindOrNull (word : Value) : (kindOrNull word).Quiet := by
  unfold kindOrNull
  split
  next => exact quiet_pure _
  next => exact quiet_bind (quiet_kindOf _) fun _ => quiet_pure _

@[simp] theorem quiet_placeIn (length standard : Nat) (place : Value) :
    (placeIn length standard place).Quiet := by
  unfold placeIn
  split <;> simp

@[simp] theorem quiet_boundsAround (source place : Value) : (boundsAround source place).Quiet := by
  unfold boundsAround
  split
  next => exact quiet_bind (quiet_placeIn _ _ _) fun _ =>
    quiet_bind (quiet_placeIn _ _ _) fun _ => quiet_pure _
  next => exact quiet_fail _
  next => exact quiet_lacks _ _

@[simp] theorem quiet_snippetAt (source place : Value) : (snippetAt source place).Quiet := by
  refine quiet_bind (quiet_boundsAround _ _) fun (start, _) => ?_
  dsimp only
  split
  next => exact quiet_ite (quiet_pure _) (quiet_fail _)
  next => exact quiet_fail _

end Function

/-! ## Scripts -/

@[simp] theorem quiet_getVariable (name : String) : (getVariable name).Quiet := by
  refine quiet_bind quiet_get fun world => ?_
  split <;> simp

@[simp] theorem quiet_setVariable (name : String) (value : Value) :
    (setVariable name value).Quiet := by
  refine quiet_modify fun world => ?_
  split <;> exact .of_eq rfl rfl rfl rfl rfl

namespace Script

@[simp] theorem quiet_evaluate (term : Term) : (evaluate term).Quiet := by
  unfold evaluate
  split
  next => exact quiet_valueOf _
  next => exact quiet_getVariable _
  next => exact quiet_pure _
  next => exact quiet_bind (quiet_compile _ _ _ _) fun _ => quiet_pure _
  next => exact quiet_bind quiet_fresh fun _ => quiet_pure _

@[simp] theorem quiet_evaluateAll (terms : List Term) : (evaluateAll terms).Quiet := by
  induction terms with
  | nil => exact quiet_pure _
  | cons term rest ih =>
      exact quiet_bind (quiet_evaluate _) fun _ => quiet_bind ih fun _ => quiet_pure _

@[simp] theorem quiet_evaluateNamed (terms : List (String × Term)) :
    (evaluateNamed terms).Quiet := by
  induction terms with
  | nil => exact quiet_pure _
  | cons term rest ih =>
      exact quiet_bind (quiet_evaluate _) fun _ => quiet_bind ih fun _ => quiet_pure _

theorem quiet_holds : ∀ condition : Cond, (holds condition).Quiet
  | .not condition => quiet_bind (quiet_holds condition) fun _ => quiet_pure _
  | .present term => quiet_bind (quiet_evaluate term) fun value => by split <;> simp
  | .equal first second =>
      quiet_bind (quiet_evaluate first) fun _ =>
        quiet_bind (quiet_evaluate second) fun _ => quiet_equal _ _

@[simp] theorem quiet_readField (object : Value) (field : String) :
    (readField object field).Quiet := by
  refine quiet_bind (quiet_attributeOf _ _) fun value => quiet_ite ?_ (quiet_pure _)
  refine quiet_bind (quiet_pairsIn _) fun pairs => ?_
  exact quiet_bind (quiet_mapM (fun _ => quiet_newList _) pairs) fun _ => quiet_newList _

end Script

@[simp] theorem quiet_callFound (pattern : Pattern) (found : Pattern.Match) (args : Args) :
    (callFound pattern found args).Quiet := by
  unfold callFound
  split
  next => exact quiet_fail _
  next =>
    split
    next => exact quiet_groupOf _ _ _
    next => exact quiet_groupOf _ _ _
    next => exact quiet_bind (quiet_mapM (quiet_groupOf _ _) _) fun _ => quiet_newList _

/-! ## Pictures -/

section Picture

variable {draw : Value → Run Datum}

theorem quiet_picturesOf (hdraw : ∀ value, (draw value).Quiet) (values : List Value) :
    (picturesOf draw values).Quiet := by
  induction values with
  | nil => exact quiet_pure _
  | cons value rest ih =>
      exact quiet_bind (hdraw value) fun _ => quiet_bind ih fun _ => quiet_pure _

theorem quiet_fieldPictures (hdraw : ∀ value, (draw value).Quiet)
    (fields : List (Value × Value)) : (fieldPictures draw fields).Quiet := by
  induction fields with
  | nil => exact quiet_pure _
  | cons field rest ih =>
      exact quiet_bind (hdraw _) fun _ => quiet_bind quiet_get fun _ =>
        quiet_bind ih fun _ => quiet_pure _

theorem quiet_locationPicture (hdraw : ∀ value, (draw value).Quiet) (location : Value) :
    (locationPicture draw location).Quiet :=
  quiet_bind (quiet_attributeOf _ _) fun _ => quiet_bind (quiet_attributeOf _ _) fun _ =>
    quiet_bind (quiet_attributeOf _ _) fun _ =>
      quiet_bind (quiet_picturesOf hdraw _) fun _ => quiet_pure _

theorem quiet_spanPicture (hdraw : ∀ value, (draw value).Quiet) (span : Value) :
    (spanPicture draw span).Quiet :=
  quiet_bind (quiet_attributeOf _ _) fun _ => quiet_bind (quiet_locationPicture hdraw _) fun _ =>
    quiet_bind (quiet_attributeOf _ _) fun _ =>
      quiet_bind (quiet_locationPicture hdraw _) fun _ => quiet_pure _

theorem quiet_notesPicture (hdraw : ∀ value, (draw value).Quiet) (notes : Value) :
    (notesPicture draw notes).Quiet :=
  quiet_bind (quiet_isSet _) fun _ =>
    quiet_ite
      (quiet_bind (quiet_pairsIn _) fun _ =>
        quiet_bind (quiet_fieldPictures hdraw _) fun _ => quiet_pure _)
      (quiet_pure _)

theorem quiet_nodePicture (hdraw : ∀ value, (draw value).Quiet) (parent : Option NodeId)
    (id : NodeId) : (nodePicture draw parent id).Quiet := by
  refine quiet_bind (quiet_cell id) fun cell => quiet_bind (hdraw _) fun _ =>
    quiet_bind (hdraw _) fun _ => quiet_bind (quiet_isSet _) fun _ => ?_
  -- with or without a span, the rest is the same
  refine quiet_ite (quiet_bind (quiet_spanPicture hdraw _) fun _ => ?_)
    (quiet_bind (hdraw _) fun _ => ?_)
  all_goals
    exact quiet_bind (quiet_valuesIn _) fun _ => quiet_bind (quiet_picturesOf hdraw _) fun _ =>
      quiet_bind (quiet_notesPicture hdraw _) fun _ => quiet_pure _

theorem quiet_pictureWithin (fuel : Nat) (path : List NodeId) (value : Value) :
    (pictureWithin fuel path value).Quiet := by
  induction fuel generalizing path value with
  | zero => exact quiet_fail _
  | succ fuel ih =>
      unfold pictureWithin
      dsimp only
      split
      case h_7 => exact quiet_bind (quiet_items _) fun _ =>
        quiet_bind (quiet_picturesOf (ih path) _) fun _ => quiet_pure _
      case h_8 => exact quiet_bind (quiet_pairsIn _) fun _ =>
        quiet_bind (quiet_fieldPictures (ih path) _) fun _ => quiet_pure _
      case h_9 => exact quiet_bind (quiet_locationPicture (ih path) _) fun _ => quiet_pure _
      case h_10 => exact quiet_bind (quiet_spanPicture (ih path) _) fun _ => quiet_pure _
      case h_11 =>
        split
        next => exact quiet_pure _
        next => exact quiet_nodePicture (ih _) _ _
      case h_12 => exact quiet_bind (quiet_host _) fun _ => quiet_pure _
      all_goals exact quiet_pure _

@[simp] theorem quiet_picture (value : Value) : (picture value).Quiet :=
  quiet_pictureWithin _ _ _

end Picture

end Rulebook
