import Rulebook.Picture
import Rulebook.Proofs.Extension.Run

/-!
# Items, attributes and pictures with more rules in a table

What is in values that ignore the tables of a parser ignores them too, and so do their attributes,
but for the two under which the parser itself has its tables.
-/

namespace Rulebook

variable {ext : Extension} {id : HostId}

/-! ## What is in values -/

theorem Value.ignores_valueOf (pattern : Pattern) (chars : List Char) :
    (pattern.valueOf chars).Ignores id := by
  rw [Pattern.valueOf]
  split <;> trivial

theorem Value.ignores_groupValue (pattern : Pattern) (group : Option (List Char)) :
    (Run.groupValue pattern group).Ignores id := by
  cases group with
  | none => trivial
  | some chars => exact Value.ignores_valueOf pattern chars

namespace AllIgnore

variable {values : List Value} {items : Array Value} {value : Value}

theorem charValues (text : String) : AllIgnore id (Run.charValues text) :=
  List.forall_mem_map.mpr fun _ _ => trivial

theorem byteValues (bytes : String) : AllIgnore id (Run.byteValues bytes) :=
  List.forall_mem_map.mpr fun _ _ => trivial

theorem groupsOf (pattern : Pattern) (found : Pattern.Match) :
    AllIgnore id (Run.groupsOf pattern found) :=
  List.forall_mem_map.mpr fun group _ => Value.ignores_groupValue pattern group

theorem append {more : List Value} (hvalues : AllIgnore id values) (hmore : AllIgnore id more) :
    AllIgnore id (values ++ more) :=
  List.forall_mem_append.mpr ⟨hvalues, hmore⟩

theorem drop (hvalues : AllIgnore id values) (count : Nat) : AllIgnore id (values.drop count) :=
  fun value hvalue => hvalues value (List.mem_of_mem_drop hvalue)

theorem push (hitems : AllIgnore id items.toList) (hvalue : value.Ignores id) :
    AllIgnore id (items.push value).toList := by
  rw [Array.toList_push]
  exact hitems.append (.cons hvalue .nil)

theorem pop (hitems : AllIgnore id items.toList) : AllIgnore id items.pop.toList := by
  rw [Array.toList_pop]
  exact fun value hvalue => hitems value ((List.dropLast_sublist _).subset hvalue)

theorem setIfInBounds (hitems : AllIgnore id items.toList) (place : Nat)
    (hvalue : value.Ignores id) : AllIgnore id (items.setIfInBounds place value).toList := by
  rw [Array.toList_setIfInBounds]
  intro other hother
  rcases List.mem_or_eq_of_mem_set hother with hold | rfl
  · exact hitems other hold
  · exact hvalue

theorem extract (hitems : AllIgnore id items.toList) (start stop : Nat) :
    AllIgnore id (items.extract start stop).toList := by
  rw [Array.toList_extract, List.extract_eq_take_drop]
  exact fun value hvalue => hitems value (List.mem_of_mem_drop (List.mem_of_mem_take hvalue))

theorem getD (hitems : AllIgnore id items.toList) (place : Nat) :
    (items.getD place .null).Ignores id := by
  rw [Array.getD_eq_getD_getElem?]
  cases hitem : items[place]? with
  | none => trivial
  | some item => exact hitems item (Array.mem_toList_iff.mpr (Array.mem_of_getElem? hitem))

theorem back? (hitems : AllIgnore id items.toList) (hback : items.back? = some value) :
    value.Ignores id :=
  hitems value (Array.mem_toList_iff.mpr (Array.mem_of_back? hback))

end AllIgnore

namespace Extension.Follows

variable {α : Type} {holds : α → Prop} {value index content : Value}

theorem keyOf (value : Value) : ext.Keeps (fun _ => True) (Run.keyOf value) := by
  unfold Run.keyOf
  split
  next => exact pure trivial
  next => exact fail _

theorem groupOf (pattern : Pattern) (found : Pattern.Match) (index : Value) :
    ext.Keeps (Value.Ignores ext.id) (Run.groupOf pattern found index) := by
  unfold Run.groupOf
  dsimp only
  split
  next => exact pure (Value.ignores_groupValue pattern _)
  all_goals exact fail _

theorem lengthOf (hvalue : value.Ignores ext.id) :
    ext.Keeps (fun _ => True) (Run.lengthOf value) := by
  unfold Run.lengthOf
  split
  next ref => exact (items ref).bind fun _ _ => pure trivial
  next => exact (record hvalue).bind fun _ _ => pure trivial
  next => exact pure trivial
  next => exact pure trivial
  next => exact ite (pure trivial) (fail _)
  next => exact fail _

theorem valuesIn (hvalue : value.Ignores ext.id) :
    ext.Keeps (AllIgnore ext.id) (Run.valuesIn value) := by
  unfold Run.valuesIn
  split
  next ref => exact (items ref).bind fun _ hitems => pure hitems
  next =>
    refine (record hvalue).bind fun _ hrecord => pure ?_
    exact List.forall_mem_map.mpr fun entry hentry => (hrecord.values entry hentry).name
  next text => exact pure (.charValues text)
  next bytes => exact pure (.byteValues bytes)
  next => exact fail _

theorem placeAt (length : Nat) (missing : Fault) (index : Value) :
    ext.Keeps (fun _ => True) (Run.placeAt length missing index) := by
  unfold Run.placeAt
  split
  next => exact fail _
  next =>
    refine ite (fail _) ?_
    split
    next => exact pure trivial
    next => exact fail _

theorem atIndex {items : Array Value} (hitems : AllIgnore ext.id items.toList) (missing : Fault)
    (index : Value) : ext.Keeps (Value.Ignores ext.id) (Run.atIndex items missing index) :=
  (placeAt _ missing index).bind fun place _ => pure (hitems.getD place)

theorem getItem (hvalue : value.Ignores ext.id) (hindex : index.Ignores ext.id) :
    ext.Keeps (Value.Ignores ext.id) (Run.getItem value index) := by
  unfold Run.getItem
  split
  next ref => exact (items ref).bind fun _ hitems => atIndex hitems .noListItem index
  next text => exact atIndex (.charValues text) .noCharacter index
  next bytes => exact atIndex (.byteValues bytes) .noByte index
  next =>
    refine (keyOf index).bind fun key _ => (record hvalue).bind fun _ hrecord => ?_
    split
    next entry hentry => exact pure (hrecord.get? hentry).value
    next => exact (plainText hindex).bind fun _ _ => fail _
  next => exact groupOf _ _ index
  next => exact fail _

/-- The table of patterns may be written to like what ignores the tables. -/
theorem setItem (hvalue : value.HeldUnder ext.id "regex") (hindex : index.Ignores ext.id)
    (hcontent : content.Ignores ext.id) :
    ext.Keeps (fun _ => True) (Run.setItem value index content) := by
  unfold Run.setItem
  split
  next ref =>
    refine (items ref).bind fun items _ => (placeAt items.size .noListPlace index).bind
      fun place _ => ?_
    exact changeItems ref fun hitems => hitems.setIfInBounds place hcontent
  next ref =>
    have href : ref ≠ .rules ext.id := by
      rcases hvalue with hvalue | ⟨hname, _⟩ | ⟨_, heq⟩
      · exact hvalue.1
      · exact absurd hname (by decide)
      · cases heq
        nofun
    exact (keyOf index).bind fun key _ =>
      changeRecord href fun hrecord => hrecord.write key hindex hcontent
  next => exact fail _

theorem restOf (value : Value) (place : Nat) :
    ext.Keeps (Value.Ignores ext.id) (Run.restOf value place) := by
  unfold Run.restOf
  split
  next => exact pure trivial
  next => exact pure trivial
  next ref => exact (items ref).bind fun _ hitems => newList (hitems.extract _ _)
  next found => exact ite (newList ((AllIgnore.groupsOf _ _).drop place)) (fail _)
  next => exact fail _

theorem takeLast (value : Value) : ext.Keeps (Value.Ignores ext.id) (Run.takeLast value) := by
  unfold Run.takeLast
  split
  next ref =>
    refine (items ref).bind fun items hitems => ?_
    split
    next last hlast =>
      exact (changeItems ref fun hitems => hitems.pop).bind fun _ _ => pure (hitems.back? hlast)
    next => exact fail _
  next => exact fail _
  next => exact lacks _ _

theorem entryOrNull (hvalue : value.Ignores ext.id) (index : Value) :
    ext.Keeps (Value.Ignores ext.id) (Run.entryOrNull value index) := by
  unfold Run.entryOrNull
  split
  next =>
    refine (keyOf index).bind fun key _ => (record hvalue).bind fun record hrecord => pure ?_
    cases hentry : record.get? key with
    | none => trivial
    | some entry => exact (hrecord.get? hentry).value
  next => exact lacks _ _

theorem pairsIn (hvalue : value.Ignores ext.id) :
    ext.Keeps (fun pairs : List (Value × Value) => ∀ pair ∈ pairs,
      pair.1.Ignores ext.id ∧ pair.2.Ignores ext.id) (Run.pairsIn value) := by
  unfold Run.pairsIn
  split
  next =>
    refine (record hvalue).bind fun _ hrecord => pure ?_
    refine List.forall_mem_map.mpr fun entry hentry => ?_
    exact ⟨(hrecord.values entry hentry).name, (hrecord.values entry hentry).value⟩
  next => exact lacks _ _

theorem writePairs (number : Nat) {record : Record} (hrecord : record.Ignores ext.id)
    {pairs : List Value} (hpairs : AllIgnore ext.id pairs) :
    ext.Keeps (Record.Ignores ext.id) (Run.writePairs number record pairs) := by
  induction pairs generalizing number record with
  | nil => exact pure hrecord
  | cons pair rest ih =>
      obtain ⟨hpair, hrest⟩ := List.forall_mem_cons.mp hpairs
      refine (valuesIn hpair).bind fun values hvalues => ?_
      split
      next name value =>
        obtain ⟨hname, hvalue⟩ := List.forall_mem_cons.mp hvalues
        refine (keyOf name).bind fun key _ => ih _ (hrecord.write key hname ?_) hrest
        exact hvalue value List.mem_cons_self
      next => exact fail _

theorem recordFrom (hvalue : value.Ignores ext.id) :
    ext.Keeps (Record.Ignores ext.id) (Run.recordFrom value) := by
  unfold Run.recordFrom
  split
  next => exact record hvalue
  next => exact (valuesIn hvalue).bind fun _ hvalues => writePairs 0 .empty hvalues

/-! ## Attributes -/

theorem methodOf (value : Value) (name : String) (hvalue : value.Ignores ext.id) :
    ext.Keeps (Value.Ignores ext.id) (Run.methodOf value name) :=
  fresh.bind fun _ _ => pure hvalue

theorem firstChild {cell : NodeCell} (hcell : cell.Ignores ext.id) :
    ext.Keeps (Value.Ignores ext.id) (Run.firstChild cell) :=
  (isSet hcell.children).bind fun _ _ => ite (getItem hcell.children trivial) (pure trivial)

theorem nodeAttribute (node : NodeId) (name : String) :
    ext.Keeps (Value.Ignores ext.id) (Run.nodeAttribute node name) := by
  refine (cell node).bind fun cell hcell => ?_
  refine ite (entryOrNull hcell.notes _) (ite (firstChild hcell) ?_)
  split
  next value hvalue => exact pure (hcell.attribute? hvalue)
  next => exact ite (methodOf (.node node) name trivial) (lacks _ _)

theorem hostPart (number : HostId) (name : String) :
    ext.Keeps (Value.HeldUnder ext.id name) (Run.hostPart number name) := by
  refine host number (fun _ _ _ => rfl) fun host hhost => ?_
  split
  next value hvalue => exact pure (hhost.attribute? hvalue)
  next => exact lacks _ _

/-- All parts of a host but its tables ignore the tables. -/
theorem hostPart_ignores (number : HostId) {name : String} (hrules : name ≠ "rules")
    (hregex : name ≠ "regex") :
    ext.Keeps (Value.Ignores ext.id) (Run.hostPart number name) :=
  (hostPart number name).mono fun _ hheld => hheld.ignores hrules hregex

theorem cursor (number : HostId) (lacking : String) :
    ext.Keeps (fun _ => True) (Run.cursor number lacking) := by
  refine host number (fun _ _ _ => rfl) fun host _ => ?_
  split
  next => exact pure trivial
  next => exact lacks _ _

theorem inputLeft (number : HostId) :
    ext.Keeps (Value.Ignores ext.id) (Run.inputLeft number) :=
  (hostPart number "input").bind fun _ _ => (cursor number "_i").bind fun _ _ => restOf _ _

theorem hostAttribute (number : HostId) (name : String) :
    ext.Keeps (Value.HeldUnder ext.id name) (Run.hostAttribute number name) := by
  refine host number (fun _ _ _ => rfl) fun host hhost => ?_
  refine ite ((inputLeft number).mono fun _ hleft => hleft.heldUnder name) ?_
  split
  next value _ hvalue => exact pure (hhost.attribute? hvalue)
  next => exact (methodOf (.host number) name trivial).mono fun _ hmethod => hmethod.heldUnder name
  next => exact lacks _ _

theorem extra (value : Value) (name : String) :
    ext.Keeps (Value.Ignores ext.id) (Run.extra value name) := by
  refine get fun world patterns notices hfits => ?_
  rw [extras_widen]
  split
  next content hcontent =>
    obtain ⟨fields, hfields, hget⟩ := Option.bind_eq_some_iff.mp hcontent
    obtain ⟨key, _, hkey⟩ := Option.bind_eq_some_iff.mp hfields
    have hextra : FieldsIgnore ext.id fields := hfits.ignores.extras.get? hkey
    exact pure (hextra.get? hget)
  next => exact lacks _ _

/-- Only the parser itself has something under a name that does not ignore the tables. -/
theorem attributeOf (hvalue : value.Ignores ext.id) (name : String) :
    ext.Keeps (Value.HeldUnder ext.id name) (Run.attributeOf value name) := by
  have hheld : ∀ {run : Run Value}, ext.Keeps (Value.Ignores ext.id) run →
      ext.Keeps (Value.HeldUnder ext.id name) run :=
    fun hrun => hrun.mono fun _ hcontent => hcontent.heldUnder name
  fun_induction Run.attributeOf value name
  case case1 node name => exact hheld (nodeAttribute node name)
  case case2 number name => exact hostAttribute number name
  case case3 => exact hheld (pure hvalue.1)
  case case4 => exact hheld (pure hvalue.2.1)
  case case5 => exact hheld (pure hvalue.2.2)
  case case6 => exact hheld (pure hvalue.1)
  case case7 => exact hheld (pure hvalue.2)
  case case8 => exact hheld (methodOf _ _ trivial)
  case case9 => exact hheld (pure trivial)
  case case10 ih => exact ih hvalue hheld
  case case11 => exact lacks _ _
  case case12 => exact hheld (extra _ _)

/-- All attributes but the tables ignore the tables. -/
theorem attributeOf_ignores (hvalue : value.Ignores ext.id) {name : String}
    (hrules : name ≠ "rules") (hregex : name ≠ "regex") :
    ext.Keeps (Value.Ignores ext.id) (Run.attributeOf value name) :=
  (attributeOf hvalue name).mono fun _ hheld => hheld.ignores hrules hregex

theorem setExtra (value : Value) (name : String) (hcontent : content.Ignores ext.id) :
    ext.Keeps (fun _ => True) (Run.setExtra value name content) := by
  refine (keyOf value).bind fun key _ => modify fun {world} hfits => ?_
  refine ⟨hfits.congr rfl ?_, fun _ _ => ⟨_, _, rfl⟩⟩
  have hgiven : FieldsIgnore ext.id ((world.extras.get? key).getD .empty) := by
    cases hfields : world.extras.get? key with
    | none => exact .empty
    | some fields => exact hfits.ignores.extras.get? hfields
  exact { hfits.ignores with
    extras := hfits.ignores.extras.insert key (hgiven.insert name hcontent) }

/-- No attribute that is written is one of the tables themselves. -/
theorem setAttribute (value : Value) (name : String) (hcontent : content.Ignores ext.id) :
    ext.Keeps (fun _ => True) (Run.setAttribute value name content) := by
  unfold Run.setAttribute
  split
  next node => exact ite (fail _) (changeCell node fun hcell => hcell.setAttribute name hcontent)
  next number =>
    refine host number (fun _ _ _ => rfl) fun host _ => ite (fail _) ?_
    refine changeHost number (fun hhost => hhost.setAttribute name hcontent) ?_ ?_
    · intro _ host
      unfold Host.setAttribute
      split <;> rfl
    · intro _ host ownRules ownPatterns
      unfold Host.setAttribute
      split <;> rfl
  next => exact fail _
  next => exact fail _
  all_goals first | exact setExtra _ name hcontent | skip
  refine get fun world patterns notices hfits => ?_
  rw [fullClassName_widen]
  exact fail _

theorem hasAttribute (hvalue : value.Ignores ext.id) (name : String) :
    ext.Keeps (fun _ => True) (Run.hasAttribute value name) := by
  refine (attributeOf hvalue name).observe (fun _ => rfl) (fun _ _ => pure trivial) ?_
  intro fault
  split
  next => contradiction
  next => exact pure trivial
  next => exact fail _

end Extension.Follows

/-! ## Calls -/

/-- A call that is addressed to what ignores the tables of a parser. -/
def Callee.Ignores (id : HostId) : Callee → Prop
  | .value callable => callable.Ignores id
  | .method receiver _ => receiver.Ignores id

/-- Arguments that ignore the tables of a parser. -/
structure Args.Ignores (id : HostId) (args : Args) : Prop where
  positional : AllIgnore id args.positional
  named : ∀ arg ∈ args.named, Value.Ignores id arg.2

theorem Args.ignores_of {values : List Value} (hvalues : AllIgnore id values) :
    (Args.of values).Ignores id := ⟨hvalues, nofun⟩

/-- Parameters whose standards ignore the tables of a parser. -/
def ParamsIgnore (id : HostId) (params : List Param) : Prop :=
  ∀ param ∈ params, ∀ standard ∈ param.standard, standard.Ignores id

/-- With more rules the calls by one kernel go as those by another do without them, unless these are
cut off. -/
structure Extension.Calls (ext : Extension) (kernel kernel' : Kernel) : Prop where
  fuel : kernel'.fuel = kernel.fuel
  invoke : ∀ {callee : Callee} {args : Args}, callee.Ignores ext.id → args.Ignores ext.id →
    ext.Follows (Value.Ignores ext.id) (kernel.invoke callee args) (kernel'.invoke callee args)

section Params

variable {named : List (String × Value)} {params : List Param} {values : List Value}

theorem ParamsIgnore.nil : ParamsIgnore id [] := nofun

theorem ParamsIgnore.needed (name : String) (hparams : ParamsIgnore id params) :
    ParamsIgnore id (.needed name :: params) :=
  List.forall_mem_cons.mpr ⟨nofun, hparams⟩

theorem ParamsIgnore.optional (name : String) {standard : Value} (hstandard : standard.Ignores id)
    (hparams : ParamsIgnore id params) : ParamsIgnore id (.optional name standard :: params) := by
  refine List.forall_mem_cons.mpr ⟨?_, hparams⟩
  rintro _ ⟨⟩
  exact hstandard

theorem ignores_lookup {name : String} {value : Value}
    (hnamed : ∀ arg ∈ named, Value.Ignores id arg.2) (hlookup : named.lookup name = some value) :
    value.Ignores id := by
  have hall : FieldsIgnore id ⟨named⟩ := hnamed
  exact hall.get? hlookup

theorem allIgnore_bindNamed (hnamed : ∀ arg ∈ named, Value.Ignores id arg.2)
    (hparams : ParamsIgnore id params) (hvalues : Args.bindNamed named params = some values) :
    AllIgnore id values := by
  induction params generalizing values with
  | nil =>
      cases hvalues
      exact .nil
  | cons param rest ih =>
      obtain ⟨hparam, hrest⟩ := List.forall_mem_cons.mp hparams
      rw [Args.bindNamed] at hvalues
      split at hvalues
      next value more hvalue hmore =>
        cases hvalues
        refine .cons ?_ (ih hrest hmore)
        -- the argument of that name, or else the standard
        cases hlookup : named.lookup param.name with
        | none =>
            rw [hlookup] at hvalue
            exact hparam value hvalue
        | some given =>
            rw [hlookup] at hvalue
            cases hvalue
            exact ignores_lookup hnamed hlookup
      next => cases hvalues

/-- What arguments are bound to ignores the tables. -/
theorem Args.Ignores.bind? {args : Args} (hargs : args.Ignores id)
    (hparams : ParamsIgnore id params) (hvalues : args.bind? params = some values) :
    AllIgnore id values := by
  rw [Args.bind?] at hvalues
  split at hvalues
  next =>
    obtain ⟨filled, hfilled, rfl⟩ := Option.map_eq_some_iff.mp hvalues
    refine hargs.positional.append (allIgnore_bindNamed hargs.named ?_ hfilled)
    exact fun param hparam => hparams param (List.mem_of_mem_drop hparam)
  next => cases hvalues

end Params

namespace Extension.Calls

variable {kernel kernel' : Kernel} {values : List Value} {value : Value}

theorem call (hcalls : ext.Calls kernel kernel') (hvalue : value.Ignores ext.id)
    (hvalues : AllIgnore ext.id values) :
    ext.Follows (Value.Ignores ext.id) (kernel.call value values) (kernel'.call value values) :=
  hcalls.invoke hvalue (Args.ignores_of hvalues)

theorem send (hcalls : ext.Calls kernel kernel') (hvalue : value.Ignores ext.id) (name : String)
    (hvalues : AllIgnore ext.id values) :
    ext.Follows (Value.Ignores ext.id) (kernel.send value name values)
      (kernel'.send value name values) :=
  hcalls.invoke hvalue (Args.ignores_of hvalues)

theorem sendHost (hcalls : ext.Calls kernel kernel') (number : HostId) (name : String)
    (hvalues : AllIgnore ext.id values) :
    ext.Follows (Value.Ignores ext.id) (kernel.sendHost number name values)
      (kernel'.sendHost number name values) :=
  hcalls.send (.host number) name hvalues

end Extension.Calls

namespace Extension.Follows

variable {kernel kernel' : Kernel} {value item : Value}

theorem bindArgs {args : Args} (hargs : args.Ignores ext.id) {params : List Param}
    (hparams : ParamsIgnore ext.id params) :
    ext.Keeps (AllIgnore ext.id) (args.bind params) := by
  unfold Args.bind
  split
  next hvalues => exact pure (hargs.bind? hparams hvalues)
  next => exact fail _

theorem append (hcalls : ext.Calls kernel kernel') (hvalue : value.Ignores ext.id)
    (hitem : item.Ignores ext.id) :
    ext.Follows (fun _ => True) (Run.append kernel value item) (Run.append kernel' value item) := by
  unfold Run.append
  split
  next ref => exact changeItems ref fun hitems => hitems.push hitem
  next =>
    exact (hcalls.send hvalue "append" (.cons hitem .nil)).bind fun _ _ => pure trivial

/-! ## Pictures -/

section Pictures

variable {draw : Value → Run Datum}
  (hdraw : ∀ {value : Value}, value.Ignores ext.id → ext.Keeps (fun _ => True) (draw value))

include hdraw

theorem picturesOf {values : List Value} (hvalues : AllIgnore ext.id values) :
    ext.Keeps (fun _ => True) (Run.picturesOf draw values) := by
  induction values with
  | nil => exact pure trivial
  | cons value rest ih =>
      obtain ⟨hvalue, hrest⟩ := List.forall_mem_cons.mp hvalues
      exact (hdraw hvalue).bind fun _ _ => (ih hrest).bind fun _ _ => pure trivial

theorem fieldPictures {fields : List (Value × Value)}
    (hfields : ∀ field ∈ fields, field.1.Ignores ext.id ∧ field.2.Ignores ext.id) :
    ext.Keeps (fun _ => True) (Run.fieldPictures draw fields) := by
  induction fields with
  | nil => exact pure trivial
  | cons field rest ih =>
      obtain ⟨hfield, hrest⟩ := List.forall_mem_cons.mp hfields
      refine (hdraw hfield.2).bind fun _ _ => get fun world patterns notices hfits => ?_
      rw [fieldName_widen patterns notices hfits.ignores hfield.1]
      exact (ih hrest).bind fun _ _ => pure trivial

theorem locationPicture (hvalue : value.Ignores ext.id) :
    ext.Keeps (fun _ => True) (Run.locationPicture draw value) := by
  refine (attributeOf_ignores hvalue (by decide) (by decide)).bind fun line hline => ?_
  refine (attributeOf_ignores hvalue (by decide) (by decide)).bind fun column hcolumn => ?_
  refine (attributeOf_ignores hvalue (by decide) (by decide)).bind fun offset hoffset => ?_
  exact (picturesOf hdraw (.cons hline (.cons hcolumn (.cons hoffset .nil)))).bind
    fun _ _ => pure trivial

theorem spanPicture (hvalue : value.Ignores ext.id) :
    ext.Keeps (fun _ => True) (Run.spanPicture draw value) := by
  refine (attributeOf_ignores hvalue (by decide) (by decide)).bind fun start hstart => ?_
  refine (locationPicture hdraw hstart).bind fun _ _ => ?_
  refine (attributeOf_ignores hvalue (by decide) (by decide)).bind fun stop hstop => ?_
  exact (locationPicture hdraw hstop).bind fun _ _ => pure trivial

theorem notesPicture (hvalue : value.Ignores ext.id) :
    ext.Keeps (fun _ => True) (Run.notesPicture draw value) :=
  (isSet hvalue).bind fun _ _ => ite
    ((pairsIn hvalue).bind fun _ hpairs => (fieldPictures hdraw hpairs).bind
      fun _ _ => pure trivial)
    (pure trivial)

theorem nodePicture (parent : Option NodeId) (node : NodeId) :
    ext.Keeps (fun _ => True) (Run.nodePicture draw parent node) := by
  refine (cell node).bind fun cell hcell => ?_
  refine (hdraw hcell.label).bind fun _ _ => (hdraw hcell.val).bind fun _ _ => ?_
  refine (isSet hcell.position).bind fun _ _ => ?_
  -- the position is drawn in one of two ways, and the rest goes on behind either
  refine ite ((spanPicture hdraw hcell.position).bind fun _ _ => ?_)
    ((hdraw hcell.position).bind fun _ _ => ?_)
  all_goals
    refine (valuesIn hcell.children).bind fun _ hchildren => ?_
    refine (picturesOf hdraw hchildren).bind fun _ _ => ?_
    exact (notesPicture hdraw hcell.notes).bind fun _ _ => pure trivial

end Pictures

theorem pictureWithin (fuel : Nat) (path : List NodeId) (hvalue : value.Ignores ext.id) :
    ext.Keeps (fun _ => True) (Run.pictureWithin fuel path value) := by
  induction fuel generalizing path value with
  | zero => exact fail _
  | succ fuel ih =>
      have hinner : ∀ {value : Value}, value.Ignores ext.id →
          ext.Keeps (fun _ => True) (Run.pictureWithin fuel path value) :=
        fun hvalue => ih path hvalue
      cases value with
      | list ref =>
          exact (items ref).bind fun _ hitems =>
            (picturesOf hinner hitems).bind fun _ _ => pure trivial
      | record ref =>
          exact (pairsIn hvalue).bind fun _ hpairs =>
            (fieldPictures hinner hpairs).bind fun _ _ => pure trivial
      | location => exact (locationPicture hinner hvalue).bind fun _ _ => pure trivial
      | span => exact (spanPicture hinner hvalue).bind fun _ _ => pure trivial
      | node node =>
          unfold Run.pictureWithin
          dsimp only
          split
          next => exact pure trivial
          next => exact nodePicture (fun hvalue => ih _ hvalue) _ node
      | host number => exact host number (fun _ _ _ => rfl) fun _ _ => pure trivial
      | _ => exact pure trivial

theorem picture (hvalue : value.Ignores ext.id) :
    ext.Keeps (fun _ => True) (Run.picture value) :=
  pictureWithin _ [] hvalue

end Extension.Follows

end Rulebook
