import Rulebook.Picture
import Rulebook.Proofs.Alike.Run

/-!
# Items, attributes and pictures of alike values

What is in values that are alike is alike, and so are their attributes, but for the registry that is
kept out of sight: reading that under its name gives the record itself, which two runs can write to
without being told apart. Pictures show no serial numbers, so alike values have one picture.
-/

namespace Rulebook

variable {bond : Bond}

/-- Two pairs hold values that are alike. -/
def Bond.Pair (bond : Bond) (pair pair' : Value × Value) : Prop :=
  pair.1.Alike bond pair'.1 ∧ pair.2.Alike bond pair'.2

/-! ## Lists of values -/

namespace Bond.Items

variable {items items' : Array Value} {value value' : Value}

theorem push (hitems : bond.Items items items') (halike : value.Alike bond value') :
    bond.Items (items.push value) (items'.push value') := by
  rw [Bond.Items, Array.toList_push, Array.toList_push]
  exact List.rel_append hitems (.cons halike .nil)

theorem pop (hitems : bond.Items items items') : bond.Items items.pop items'.pop := by
  rw [Bond.Items, Array.toList_pop, Array.toList_pop]
  exact forall₂_dropLast hitems

theorem setIfInBounds (hitems : bond.Items items items') (place : Nat)
    (halike : value.Alike bond value') :
    bond.Items (items.setIfInBounds place value) (items'.setIfInBounds place value') := by
  rw [Bond.Items, Array.toList_setIfInBounds, Array.toList_setIfInBounds]
  exact forall₂_set hitems place halike

theorem extract (hitems : bond.Items items items') (start stop : Nat) :
    bond.Items (items.extract start stop) (items'.extract start stop) := by
  rw [Bond.Items, Array.toList_extract, Array.toList_extract, List.extract_eq_take_drop,
    List.extract_eq_take_drop]
  exact List.forall₂_take _ (List.forall₂_drop _ hitems)

theorem getElem? (hitems : bond.Items items items') (place : Nat) :
    Option.Rel (Value.Alike bond) items[place]? items'[place]? := by
  rw [← Array.getElem?_toList, ← Array.getElem?_toList]
  exact forall₂_getElem? hitems place

theorem getD (hitems : bond.Items items items') (place : Nat) :
    (items.getD place .null).Alike bond (items'.getD place .null) := by
  rw [Array.getD_eq_getD_getElem?, Array.getD_eq_getD_getElem?]
  exact (hitems.getElem? place).getD .null

theorem back? (hitems : bond.Items items items') :
    Option.Rel (Value.Alike bond) items.back? items'.back? := by
  rw [Array.back?, Array.back?, hitems.size]
  exact hitems.getElem? _

end Bond.Items

/-- A value that has no parts in which values could differ is alike to itself. -/
theorem alike_valueOf (bond : Bond) (pattern : Pattern) (chars : List Char) :
    (pattern.valueOf chars).Alike bond (pattern.valueOf chars) := by
  rw [Pattern.valueOf]
  split
  next => exact .bytes _
  next => exact .text _

theorem alike_groupValue (bond : Bond) (pattern : Pattern) (group : Option (List Char)) :
    (Run.groupValue pattern group).Alike bond (Run.groupValue pattern group) := by
  cases group with
  | none => exact .null
  | some chars => exact alike_valueOf bond pattern chars

theorem alike_charValues (bond : Bond) (text : String) :
    List.Forall₂ (Value.Alike bond) (Run.charValues text) (Run.charValues text) := by
  rw [List.forall₂_same]
  intro value hvalue
  obtain ⟨char, _, rfl⟩ := List.mem_map.mp hvalue
  exact .text _

theorem alike_byteValues (bond : Bond) (bytes : String) :
    List.Forall₂ (Value.Alike bond) (Run.byteValues bytes) (Run.byteValues bytes) := by
  rw [List.forall₂_same]
  intro value hvalue
  obtain ⟨char, _, rfl⟩ := List.mem_map.mp hvalue
  exact .int _

theorem alike_groupsOf (bond : Bond) (pattern : Pattern) (found : Pattern.Match) :
    List.Forall₂ (Value.Alike bond) (Run.groupsOf pattern found) (Run.groupsOf pattern found) := by
  rw [List.forall₂_same]
  intro value hvalue
  obtain ⟨group, _, rfl⟩ := List.mem_map.mp hvalue
  exact alike_groupValue bond pattern group

theorem World.Alike.fieldName {world world' : World} (hworld : world.Alike bond world')
    {name name' : Value} (halike : name.Alike bond name') :
    Rulebook.fieldName world name = Rulebook.fieldName world' name' := by
  have hname := hworld.plainText halike
  cases halike with
  | null => rfl
  | bool value => rfl
  | _ => exact hname

/-- The fields of a value, besides which it has only the attributes that it was given. -/
def Value.fields? : Value → Option (List String)
  | .node _ | .host _ | .bound _ _ _ | .method _ _ _ => none
  | .location _ _ _ _ => some ["line", "column", "offset"]
  | .span _ _ _ => some ["start", "end"]
  | .found _ _ _ => some ["group"]
  | .kind _ => some ["value"]
  | _ => some []

theorem attributeOf_extra {value : Value} {fields : List String} {name : String}
    (hfields : value.fields? = some fields) (hname : name ∉ fields) :
    Run.attributeOf value name = Run.extra value name := by
  cases value with
  | node | host | bound | method => cases hfields
  | _ =>
      cases hfields
      rw [Run.attributeOf] <;> simp_all

namespace Bond.Follows

variable {value value' index index' content content' : Value} {id : HostId}

/-! ## What is in a value -/

theorem keyOf (halike : value.Alike bond value') :
    bond.Follows (Key.Alike bond) (Run.keyOf value) (Run.keyOf value') := by
  unfold Run.keyOf
  rcases halike.key?.cases with ⟨hnone, hnone'⟩ | ⟨key, key', hsome, hsome', hkey⟩
  · rw [hnone, hnone']
    exact fail _
  · rw [hsome, hsome']
    exact pure hkey

theorem groupOf (pattern : Pattern) (found : Pattern.Match) (hindex : index.Alike bond index') :
    bond.Follows (Value.Alike bond) (Run.groupOf pattern found index)
      (Run.groupOf pattern found index') := by
  have hkey := hindex.key?.isSome
  unfold Run.groupOf
  cases hindex with
  | bool | int | text =>
      dsimp only [Value.index?]
      split <;> first | exact pure (alike_groupValue bond pattern _) | exact fail _
  | bytes => exact fail _
  | _ =>
      dsimp only [Value.index?] at hkey ⊢
      rw [hkey]
      exact fail _

theorem lengthOf (halike : value.Alike bond value') :
    bond.Follows Eq (Run.lengthOf value) (Run.lengthOf value') := by
  cases halike with
  | list ref => exact (items ref).bind fun _ _ hitems => pure hitems.size
  | record hsight => exact (record hsight).bind fun _ _ hrecord => pure hrecord.size
  | text | bytes => exact pure rfl
  | found => exact ite (pure rfl) (fail _)
  | _ => exact fail _

theorem valuesIn (halike : value.Alike bond value') :
    bond.Follows (List.Forall₂ (Value.Alike bond)) (Run.valuesIn value) (Run.valuesIn value') := by
  cases halike with
  | list ref => exact (items ref).bind fun _ _ hitems => pure hitems
  | record hsight =>
      refine (record hsight).bind fun _ _ hrecord => pure ?_
      rw [List.forall₂_map_left_iff, List.forall₂_map_right_iff]
      exact List.Forall₂.imp (fun _ _ hentry => hentry.name) hrecord.values
  | text text => exact pure (alike_charValues bond text)
  | bytes bytes => exact pure (alike_byteValues bond bytes)
  | _ => exact fail _

theorem placeAt (length : Nat) (missing : Fault) (hindex : index.Alike bond index') :
    bond.Follows Eq (Run.placeAt length missing index) (Run.placeAt length missing index') := by
  unfold Run.placeAt
  rw [hindex.index?]
  split
  next => exact fail _
  next =>
    refine ite (fail _) ?_
    split
    next => exact pure rfl
    next => exact fail _

theorem atIndex {items items' : Array Value} (hitems : bond.Items items items') (missing : Fault)
    (hindex : index.Alike bond index') :
    bond.Follows (Value.Alike bond) (Run.atIndex items missing index)
      (Run.atIndex items' missing index') := by
  unfold Run.atIndex
  rw [hitems.size]
  exact (placeAt _ missing hindex).bindEq fun place => pure (hitems.getD place)

theorem getItem (halike : value.Alike bond value') (hindex : index.Alike bond index') :
    bond.Follows (Value.Alike bond) (Run.getItem value index) (Run.getItem value' index') := by
  cases halike with
  | list ref => exact (items ref).bind fun _ _ hitems => atIndex hitems .noListItem hindex
  | text text => exact atIndex (alike_charValues bond text) .noCharacter hindex
  | bytes bytes => exact atIndex (alike_byteValues bond bytes) .noByte hindex
  | record hsight =>
      refine (keyOf hindex).bind fun key key' hkey => (record hsight).bind fun _ _ hrecord => ?_
      rcases (hrecord.get? hkey).cases with
        ⟨hnone, hnone'⟩ | ⟨entry, entry', hsome, hsome', hentry⟩
      · rw [hnone, hnone']
        exact (plainText hindex).bindEq fun _ => fail _
      · rw [hsome, hsome']
        exact pure hentry.value
  | found _ pattern found => exact groupOf pattern found hindex
  | _ => exact fail _

/-- Writing into what is out of sight is not told apart. -/
theorem setItem (hheld : value.Held bond value') (hindex : index.Alike bond index')
    (hcontent : content.Alike bond content') :
    bond.Follows Eq (Run.setItem value index content) (Run.setItem value' index' content') := by
  have hrecord : ∀ ref, bond.Shows ref ∨ bond.apart = none →
      bond.Follows Eq (Run.setItem (.record ref) index content)
        (Run.setItem (.record ref) index' content') := fun ref hsight =>
    (keyOf hindex).bind fun key key' hkey =>
      changeRecord hsight fun _ _ _ hrecord => hrecord.write hkey hindex hcontent
  rcases hheld with halike | ⟨hnone, rfl, rfl⟩
  · cases halike with
    | list ref =>
        refine (items ref).bind fun _ _ hitems => ?_
        rw [hitems.size]
        exact (placeAt _ .noListPlace hindex).bindEq fun place =>
          changeItems ref fun hitems => hitems.setIfInBounds place hcontent
    | record hsight => exact hrecord _ (.inl hsight)
    | _ => exact fail _
  · exact hrecord _ (.inr hnone)

theorem restOf (halike : value.Alike bond value') (place : Nat) :
    bond.Follows (Value.Alike bond) (Run.restOf value place) (Run.restOf value' place) := by
  cases halike with
  | text => exact pure (.text _)
  | bytes => exact pure (.bytes _)
  | list ref =>
      refine (items ref).bind fun _ _ hitems => ?_
      rw [hitems.size]
      exact newList (hitems.extract _ _)
  | found _ pattern found =>
      exact ite (newList (List.forall₂_drop _ (alike_groupsOf bond pattern found))) (fail _)
  | _ => exact fail _

theorem takeLast (halike : value.Alike bond value') :
    bond.Follows (Value.Alike bond) (Run.takeLast value) (Run.takeLast value') := by
  cases halike with
  | list ref =>
      refine (items ref).bind fun _ _ hitems => ?_
      rcases hitems.back?.cases with ⟨hnone, hnone'⟩ | ⟨last, last', hsome, hsome', hlast⟩
      · rw [hnone, hnone']
        exact fail _
      · rw [hsome, hsome']
        exact (changeItems ref fun hitems => hitems.pop).bindEq fun _ => pure hlast
  | record => exact fail _
  | _ => exact lacks (by constructor <;> assumption) "pop"

theorem entryOrNull (halike : value.Alike bond value') (hindex : index.Alike bond index') :
    bond.Follows (Value.Alike bond) (Run.entryOrNull value index)
      (Run.entryOrNull value' index') := by
  cases halike with
  | record hsight =>
      refine (keyOf hindex).bind fun _ _ hkey => (record hsight).bind fun _ _ hrecord => ?_
      exact pure (((hrecord.get? hkey).map fun hentry => hentry.value).getD .null)
  | _ => exact lacks (by constructor <;> assumption) "get"

theorem pairsIn (halike : value.Alike bond value') :
    bond.Follows (List.Forall₂ bond.Pair) (Run.pairsIn value) (Run.pairsIn value') := by
  cases halike with
  | record hsight =>
      refine (record hsight).bind fun _ _ hrecord => pure ?_
      rw [List.forall₂_map_left_iff, List.forall₂_map_right_iff]
      exact List.Forall₂.imp (fun _ _ hentry => ⟨hentry.name, hentry.value⟩) hrecord.values
  | _ => exact lacks (by constructor <;> assumption) "items"

theorem writePairs {pairs pairs' : List Value}
    (hpairs : List.Forall₂ (Value.Alike bond) pairs pairs') (index : Nat) {record record' : Record}
    (hrecord : record.Alike bond record') :
    bond.Follows (Record.Alike bond) (Run.writePairs index record pairs)
      (Run.writePairs index record' pairs') := by
  induction hpairs generalizing index record record' with
  | nil => exact pure hrecord
  | cons hpair _ ih =>
      refine (valuesIn hpair).bind fun values values' hvalues => ?_
      rcases hvalues with _ | ⟨hname, _ | ⟨hvalue, _ | ⟨_, hrest⟩⟩⟩
      · exact fail _
      · exact fail _
      · refine (keyOf hname).bind fun _ _ hkey => ?_
        exact ih _ (hrecord.write hkey hname hvalue)
      · simp only [List.length_cons, hrest.length_eq]
        exact fail _

theorem recordFrom (halike : value.Alike bond value') :
    bond.Follows (Record.Alike bond) (Run.recordFrom value) (Run.recordFrom value') := by
  cases halike with
  | record hsight => exact record hsight
  | _ =>
      exact (valuesIn (by constructor <;> assumption)).bind fun _ _ hvalues =>
        writePairs hvalues 0 .nil

/-! ## Attributes -/

theorem methodOf (halike : value.Alike bond value') (name : String) :
    bond.Follows (Value.Alike bond) (Run.methodOf value name) (Run.methodOf value' name) :=
  fresh.bind fun _ _ hserial => pure (.method hserial halike name)

theorem firstChild {cell cell' : NodeCell} (hcell : cell.Alike bond cell') :
    bond.Follows (Value.Alike bond) (Run.firstChild cell) (Run.firstChild cell') :=
  (isSet hcell.children).bindEq fun _ => ite (getItem hcell.children (.int 0)) (pure .null)

theorem nodeAttribute (id : NodeId) (name : String) :
    bond.Follows (Value.Alike bond) (Run.nodeAttribute id name) (Run.nodeAttribute id name) := by
  refine (cell id).bind fun cell cell' hcell => ?_
  refine ite (entryOrNull hcell.notes (.text "match")) (ite (firstChild hcell) ?_)
  rcases (hcell.attribute? name).cases with ⟨hnone, hnone'⟩ | ⟨value, value', hsome, hsome', halike⟩
  · rw [hnone, hnone']
    exact ite (methodOf (.node id) name) (lacks (.node id) name)
  · rw [hsome, hsome']
    exact pure halike

theorem hostPart (hid : bond.Sees id) {name : String} (hname : name ≠ "regex") :
    bond.Follows (Value.Alike bond) (Run.hostPart id name) (Run.hostPart id name) := by
  refine (host hid).bind fun host host' hhost => ?_
  rcases (hhost.attribute? hname).cases with
    ⟨hnone, hnone'⟩ | ⟨value, value', hsome, hsome', halike⟩
  · rw [hnone, hnone']
    exact lacks (.host hid) name
  · rw [hsome, hsome']
    exact pure halike

theorem cursor (hid : bond.Sees id) (lacking : String) :
    bond.Follows Eq (Run.cursor id lacking) (Run.cursor id lacking) := by
  refine (host hid).bind fun host host' hhost => ?_
  rw [hhost.cursor]
  split
  next => exact pure rfl
  next => exact lacks (.host hid) lacking

theorem inputLeft (hid : bond.Sees id) :
    bond.Follows (Value.Alike bond) (Run.inputLeft id) (Run.inputLeft id) :=
  (hostPart hid (by decide)).bind fun _ _ hinput =>
    (cursor hid "_i").bindEq fun _ => restOf hinput _

theorem hostAttribute_as {rel : Value → Value → Prop} (hid : bond.Sees id) (name : String)
    (hrel : ∀ {value value' : Value}, value.Alike bond value' → rel value value')
    (hgiven : ∀ {host host' : Host}, host.Alike bond host' →
      Option.Rel rel (host.attribute? name) (host'.attribute? name)) :
    bond.Follows rel (Run.hostAttribute id name) (Run.hostAttribute id name) := by
  refine (host hid).bind fun host host' hhost => ?_
  have hcomputed : Run.isComputed host name = Run.isComputed host' name := by
    rw [Run.isComputed, Run.isComputed, hhost.hostClass]
  rw [hcomputed, hhost.hostClass]
  refine ite ((inputLeft hid).mono hrel) ?_
  rcases (hgiven hhost).cases with ⟨hnone, hnone'⟩ | ⟨value, value', hsome, hsome', halike⟩
  · rw [hnone, hnone']
    split
    next => contradiction
    next => exact (methodOf (.host hid) name).mono hrel
    next => exact lacks (.host hid) name
  · rw [hsome, hsome']
    exact pure halike

theorem hostAttribute (hid : bond.Sees id) (name : String) :
    bond.Follows (Value.Held bond) (Run.hostAttribute id name) (Run.hostAttribute id name) :=
  hostAttribute_as hid name Value.Alike.held fun hhost => hhost.held name

theorem hostAttribute_sight (hid : bond.Sees id) {name : String} (hname : name ≠ "regex") :
    bond.Follows (Value.Alike bond) (Run.hostAttribute id name) (Run.hostAttribute id name) :=
  hostAttribute_as hid name (fun halike => halike) fun hhost => hhost.attribute? hname

theorem extra (halike : value.Alike bond value') (name : String) :
    bond.Follows (Value.Alike bond) (Run.extra value name) (Run.extra value' name) := by
  refine get fun world world' hworld => ?_
  have hgiven : Option.Rel (Value.Alike bond)
      ((value.key?.bind world.extras.get?).bind (·.get? name))
      ((value'.key?.bind world'.extras.get?).bind (·.get? name)) := by
    rcases halike.key?.cases with ⟨hnone, hnone'⟩ | ⟨key, key', hsome, hsome', hkey⟩
    · rw [hnone, hnone']
      exact .none
    · rw [hsome, hsome', Option.bind_some, Option.bind_some]
      rcases (Table.Alike.get? (Key.biUnique_alike bond) hworld.extras hkey).cases with
        ⟨hnone, hnone'⟩ | ⟨fields, fields', hsome, hsome', hfields⟩
      · rw [hnone, hnone']
        exact .none
      · rw [hsome, hsome']
        exact hfields.get? name
  rcases hgiven.cases with ⟨hnone, hnone'⟩ | ⟨content, content', hsome, hsome', hcontent⟩
  · rw [hnone, hnone']
    exact lacks halike name
  · rw [hsome, hsome']
    exact pure hcontent

/-- An attribute of what is alike is alike, or it is the registry that is kept out of sight. -/
theorem attributeOf_as {rel : Value → Value → Prop} (halike : value.Alike bond value')
    (name : String) (hrel : ∀ {value value' : Value}, value.Alike bond value' → rel value value')
    (hhost : ∀ {id}, bond.Sees id →
      bond.Follows rel (Run.hostAttribute id name) (Run.hostAttribute id name)) :
    bond.Follows rel (Run.attributeOf value name) (Run.attributeOf value' name) := by
  induction halike with
  | node id => exact (nodeAttribute id name).mono hrel
  | host hid => exact hhost hid
  | location hserial hline hcolumn hoffset =>
      by_cases hname : name ∈ ["line", "column", "offset"]
      · simp only [List.mem_cons, List.not_mem_nil, or_false] at hname
        rcases hname with rfl | rfl | rfl
        · exact pure (hrel hline)
        · exact pure (hrel hcolumn)
        · exact pure (hrel hoffset)
      · rw [attributeOf_extra rfl hname, attributeOf_extra rfl hname]
        exact (extra (.location hserial hline hcolumn hoffset) name).mono hrel
  | span hserial hstart hstop =>
      by_cases hname : name ∈ ["start", "end"]
      · simp only [List.mem_cons, List.not_mem_nil, or_false] at hname
        rcases hname with rfl | rfl
        · exact pure (hrel hstart)
        · exact pure (hrel hstop)
      · rw [attributeOf_extra rfl hname, attributeOf_extra rfl hname]
        exact (extra (.span hserial hstart hstop) name).mono hrel
  | found hserial pattern found =>
      by_cases hname : name ∈ ["group"]
      · rw [List.mem_singleton.mp hname]
        exact (methodOf (.found hserial pattern found) "group").mono hrel
      · rw [attributeOf_extra rfl hname, attributeOf_extra rfl hname]
        exact (extra (.found hserial pattern found) name).mono hrel
  | kind kind =>
      by_cases hname : name ∈ ["value"]
      · rw [List.mem_singleton.mp hname]
        exact pure (hrel (.text _))
      · rw [attributeOf_extra rfl hname]
        exact (extra (.kind kind) name).mono hrel
  | bound _ _ _ ih => exact ih
  | method hserial hreceiver method => exact lacks (.method hserial hreceiver method) name
  | _ => exact (extra (by constructor <;> assumption) name).mono hrel

theorem attributeOf_held (halike : value.Alike bond value') (name : String) :
    bond.Follows (Value.Held bond) (Run.attributeOf value name) (Run.attributeOf value' name) :=
  attributeOf_as halike name Value.Alike.held fun hid => hostAttribute hid name

theorem attributeOf (halike : value.Alike bond value') {name : String} (hname : name ≠ "regex") :
    bond.Follows (Value.Alike bond) (Run.attributeOf value name) (Run.attributeOf value' name) :=
  attributeOf_as halike name (fun halike => halike) fun hid => hostAttribute_sight hid hname

theorem setExtra (halike : value.Alike bond value') (name : String)
    (hcontent : content.Alike bond content') :
    bond.Follows Eq (Run.setExtra value name content) (Run.setExtra value' name content') := by
  refine (keyOf halike).bind fun key key' hkey => modify fun world world' hworld => ?_
  have hnone : bond.Fields .empty .empty := .nil
  have hgiven := (Table.Alike.get? (Key.biUnique_alike bond) hworld.extras hkey).getD hnone
  exact
    { hworld with
      sizes := { hworld.sizes with }
      extras := Table.Alike.insert (Key.biUnique_alike bond) hworld.extras hkey
        (Bond.Fields.insert hgiven name hcontent) }

theorem setAttribute (halike : value.Alike bond value') (name : String)
    (hcontent : content.Alike bond content') :
    bond.Follows Eq (Run.setAttribute value name content)
      (Run.setAttribute value' name content') := by
  cases halike with
  | node id =>
      refine ite (fail _) (changeCell id ?_)
      exact
        { alike := fun hcell => hcell.setAttribute name hcontent
          keeps := NodeCell.keepsOwn_setAttribute name content
          keeps' := NodeCell.keepsOwn_setAttribute name content' }
  | host hid =>
      refine (host hid).bind fun host host' hhost => ?_
      have hcomputed : Run.isComputed host name = Run.isComputed host' name := by
        rw [Run.isComputed, Run.isComputed, hhost.hostClass]
      rw [hcomputed, hhost.hostClass]
      refine ite (fail _) (changeHost hid ?_)
      exact
        { alike := fun hhost => hhost.setAttribute name hcontent
          keeps := Host.keepsOwn_setAttribute name content
          keeps' := Host.keepsOwn_setAttribute name content' }
  | location | span => exact fail _
  | kind | callback | patternRule | stamp | plugin | captureRule | forward =>
      exact setExtra (by constructor <;> assumption) name hcontent
  | _ =>
      refine get fun world world' hworld => ?_
      rw [hworld.fullClassName (by constructor <;> assumption)]
      exact fail _

theorem hasAttribute (halike : value.Alike bond value') (name : String) :
    bond.Follows Eq (Run.hasAttribute value name) (Run.hasAttribute value' name) := by
  refine (attributeOf_held halike name).observe.bind fun _ _ hend => ?_
  cases hend with
  | ok => exact pure rfl
  | error fault =>
      split
      next => contradiction
      next => exact pure rfl
      next => exact fail _

end Bond.Follows

/-! ## Calls -/

/-- Two calls are addressed alike. -/
inductive Callee.Alike (bond : Bond) : Callee → Callee → Prop
  | value {callable callable' : Value} (halike : callable.Alike bond callable') :
      Alike bond (.value callable) (.value callable')
  | method {receiver receiver' : Value} (halike : receiver.Alike bond receiver') (name : String) :
      Alike bond (.method receiver name) (.method receiver' name)

/-- Arguments are alike. -/
structure Args.Alike (bond : Bond) (args args' : Args) : Prop where
  positional : List.Forall₂ (Value.Alike bond) args.positional args'.positional
  named : List.Forall₂ bond.Named args.named args'.named

/-- By two kernels calls that are alike go the same way. -/
structure Kernel.Alike (bond : Bond) (kernel kernel' : Kernel) : Prop where
  fuel : kernel.fuel = kernel'.fuel
  invoke : ∀ {callee callee' : Callee} {args args' : Args}, callee.Alike bond callee' →
    args.Alike bond args' →
    bond.Follows (Value.Alike bond) (kernel.invoke callee args) (kernel'.invoke callee' args')

namespace Kernel.Alike

variable {kernel kernel' : Kernel} {values values' : List Value} {value value' : Value}

theorem call (hkernel : kernel.Alike bond kernel') (halike : value.Alike bond value')
    (hvalues : List.Forall₂ (Value.Alike bond) values values') :
    bond.Follows (Value.Alike bond) (kernel.call value values) (kernel'.call value' values') :=
  hkernel.invoke (.value halike) ⟨hvalues, .nil⟩

theorem send (hkernel : kernel.Alike bond kernel') (halike : value.Alike bond value')
    (name : String) (hvalues : List.Forall₂ (Value.Alike bond) values values') :
    bond.Follows (Value.Alike bond) (kernel.send value name values)
      (kernel'.send value' name values') :=
  hkernel.invoke (.method halike name) ⟨hvalues, .nil⟩

theorem sendHost (hkernel : kernel.Alike bond kernel') {id : HostId} (hid : bond.Sees id)
    (name : String)
    (hvalues : List.Forall₂ (Value.Alike bond) values values') :
    bond.Follows (Value.Alike bond) (kernel.sendHost id name values)
      (kernel'.sendHost id name values') :=
  hkernel.send (.host hid) name hvalues

end Kernel.Alike

/-! ## Arguments -/

/-- Parameters that nothing but values alike to themselves stands in for. -/
def Bond.Params (bond : Bond) (params : List Param) : Prop :=
  ∀ param ∈ params, Option.Rel (Value.Alike bond) param.standard param.standard

theorem Bond.Params.cons {param : Param} {params : List Param}
    (hparam : Option.Rel (Value.Alike bond) param.standard param.standard)
    (hparams : bond.Params params) : bond.Params (param :: params) :=
  List.forall_mem_cons.mpr ⟨hparam, hparams⟩

theorem Bond.Params.nil : bond.Params [] := nofun

theorem lookup_named {named named' : List (String × Value)}
    (hnamed : List.Forall₂ bond.Named named named') (name : String) :
    Option.Rel (Value.Alike bond) (named.lookup name) (named'.lookup name) := by
  have htable : bond.Fields ⟨named⟩ ⟨named'⟩ := hnamed
  exact htable.get? name

theorem bindNamed_alike {named named' : List (String × Value)}
    (hnamed : List.Forall₂ bond.Named named named') {params : List Param}
    (hparams : bond.Params params) :
    Option.Rel (List.Forall₂ (Value.Alike bond)) (Args.bindNamed named params)
      (Args.bindNamed named' params) := by
  induction params with
  | nil => exact .some .nil
  | cons param rest ih =>
      obtain ⟨hparam, hrest⟩ := List.forall_mem_cons.mp hparams
      have hgiven : Option.Rel (Value.Alike bond) (named.lookup param.name <|> param.standard)
          (named'.lookup param.name <|> param.standard) := by
        rcases (lookup_named hnamed param.name).cases with
          ⟨hnone, hnone'⟩ | ⟨value, value', hsome, hsome', halike⟩
        · rw [hnone, hnone']
          exact hparam
        · rw [hsome, hsome']
          exact .some halike
      rw [Args.bindNamed, Args.bindNamed]
      rcases hgiven.cases with ⟨hnone, hnone'⟩ | ⟨value, value', hsome, hsome', halike⟩
      · rw [hnone, hnone']
        exact .none
      rcases (ih hrest).cases with ⟨hnone, hnone'⟩ | ⟨values, values', hsome₂, hsome₂', hvalues⟩
      · rw [hsome, hsome', hnone, hnone']
        exact .none
      rw [hsome, hsome', hsome₂, hsome₂']
      exact .some (.cons halike hvalues)

theorem Args.Alike.bind? {args args' : Args} (hargs : args.Alike bond args') {params : List Param}
    (hparams : bond.Params params) :
    Option.Rel (List.Forall₂ (Value.Alike bond)) (args.bind? params) (args'.bind? params) := by
  have hnames : args.named.map Prod.fst = args'.named.map Prod.fst :=
    map_eq_of_forall₂ hargs.named And.left
  have hall : ∀ unfilled : List Param,
      (args.named.all fun arg => unfilled.any fun param => param.name == arg.1) =
        args'.named.all fun arg => unfilled.any fun param => param.name == arg.1 := fun unfilled =>
    all_eq_of_forall₂ hargs.named fun hnamed => by rw [hnamed.1]
  rw [Args.bind?, Args.bind?, hargs.positional.length_eq, hargs.named.length_eq, hnames, hall]
  split
  next =>
    refine (bindNamed_alike hargs.named ?_).map fun hvalues => ?_
    · exact fun param hparam => hparams param (List.mem_of_mem_drop hparam)
    · exact List.rel_append hargs.positional hvalues
  next => exact .none

namespace Bond.Follows

variable {kernel kernel' : Kernel} {value value' item item' index index' : Value}

theorem bindArgs {args args' : Args} (hargs : args.Alike bond args') {params : List Param}
    (hparams : bond.Params params) :
    bond.Follows (List.Forall₂ (Value.Alike bond)) (args.bind params) (args'.bind params) := by
  unfold Args.bind
  rcases (hargs.bind? hparams).cases with
    ⟨hnone, hnone'⟩ | ⟨values, values', hsome, hsome', hvalues⟩
  · rw [hnone, hnone']
    exact fail _
  · rw [hsome, hsome']
    exact pure hvalues

theorem append (hkernel : kernel.Alike bond kernel') (halike : value.Alike bond value')
    (hitem : item.Alike bond item') :
    bond.Follows Eq (Run.append kernel value item) (Run.append kernel' value' item') := by
  cases halike with
  | list ref => exact changeItems ref fun hitems => hitems.push hitem
  | _ =>
      exact (hkernel.send (by constructor <;> assumption) "append" (.cons hitem .nil)).bind
        fun _ _ _ => pure rfl

theorem takeEntry (hkernel : kernel.Alike bond kernel') (halike : value.Alike bond value')
    (hindex : index.Alike bond index') :
    bond.Follows (Value.Alike bond) (Run.takeEntry kernel value index)
      (Run.takeEntry kernel' value' index') := by
  cases halike with
  | record hsight =>
      refine (keyOf hindex).bind fun _ _ hkey => (record hsight).bind fun _ _ hrecord => ?_
      have hfound := (hrecord.get? hkey).map fun hentry => hentry.value
      refine bindEq (changeRecord (.inl hsight) fun _ _ _ hrecord => ?_)
        fun _ => pure (hfound.getD .null)
      exact Table.Alike.erase (Key.biUnique_alike bond) hrecord hkey
  | list => exact fail _
  | _ => exact hkernel.send (by constructor <;> assumption) "pop" (.cons hindex (.cons .null .nil))

/-! ## Pictures -/

section Pictures

variable {draw draw' : Value → Run Datum}
  (hdraw : ∀ {value value' : Value}, value.Alike bond value' →
    bond.Follows Eq (draw value) (draw' value'))

include hdraw

theorem picturesOf {values values' : List Value}
    (hvalues : List.Forall₂ (Value.Alike bond) values values') :
    bond.Follows Eq (Run.picturesOf draw values) (Run.picturesOf draw' values') := by
  induction hvalues with
  | nil => exact pure rfl
  | cons halike _ ih => exact (hdraw halike).bindEq fun _ => ih.bindEq fun _ => pure rfl

theorem fieldPictures {fields fields' : List (Value × Value)}
    (hfields : List.Forall₂ bond.Pair fields fields') :
    bond.Follows Eq (Run.fieldPictures draw fields) (Run.fieldPictures draw' fields') := by
  induction hfields with
  | nil => exact pure rfl
  | cons hfield _ ih =>
      refine (hdraw hfield.2).bindEq fun _ => get fun world world' hworld => ?_
      rw [hworld.fieldName hfield.1]
      exact ih.bindEq fun _ => pure rfl

theorem locationPicture (halike : value.Alike bond value') :
    bond.Follows Eq (Run.locationPicture draw value) (Run.locationPicture draw' value') := by
  refine (attributeOf halike (by decide)).bind fun _ _ hline => ?_
  refine (attributeOf halike (by decide)).bind fun _ _ hcolumn => ?_
  refine (attributeOf halike (by decide)).bind fun _ _ hoffset => ?_
  exact (picturesOf hdraw (.cons hline (.cons hcolumn (.cons hoffset .nil)))).bindEq
    fun _ => pure rfl

theorem spanPicture (halike : value.Alike bond value') :
    bond.Follows Eq (Run.spanPicture draw value) (Run.spanPicture draw' value') := by
  refine (attributeOf halike (by decide)).bind fun _ _ hstart => ?_
  refine (locationPicture hdraw hstart).bindEq fun _ => ?_
  refine (attributeOf halike (by decide)).bind fun _ _ hstop => ?_
  exact (locationPicture hdraw hstop).bindEq fun _ => pure rfl

theorem notesPicture (halike : value.Alike bond value') :
    bond.Follows Eq (Run.notesPicture draw value) (Run.notesPicture draw' value') :=
  (isSet halike).bindEq fun _ => ite
    ((pairsIn halike).bind fun _ _ hpairs => (fieldPictures hdraw hpairs).bindEq fun _ => pure rfl)
    (pure rfl)

theorem nodePicture (parent : Option NodeId) (id : NodeId) :
    bond.Follows Eq (Run.nodePicture draw parent id) (Run.nodePicture draw' parent id) := by
  refine (cell id).bind fun cell cell' hcell => ?_
  refine (hdraw hcell.label).bindEq fun _ => (hdraw hcell.val).bindEq fun _ => ?_
  have hdetached : (fun parent : NodeId => !cell.parent.same (.node parent)) =
      fun parent => !cell'.parent.same (.node parent) :=
    funext fun parent => congrArg not (hcell.parent.same (.node parent))
  rw [hdetached]
  refine (isSet hcell.position).bindEq fun _ => ?_
  -- the position is drawn in one of two ways, and the rest goes on behind either
  refine ite ((spanPicture hdraw hcell.position).bindEq fun _ => ?_)
    ((hdraw hcell.position).bindEq fun _ => ?_)
  all_goals
    refine (valuesIn hcell.children).bind fun _ _ hchildren => ?_
    refine (picturesOf hdraw hchildren).bindEq fun _ => ?_
    exact (notesPicture hdraw hcell.notes).bindEq fun _ => pure rfl

end Pictures

theorem pictureWithin (fuel : Nat) (path : List NodeId) (halike : value.Alike bond value') :
    bond.Follows Eq (Run.pictureWithin fuel path value) (Run.pictureWithin fuel path value') := by
  induction fuel generalizing path value value' with
  | zero => exact fail _
  | succ fuel ih =>
      have hinner : ∀ {value value' : Value}, value.Alike bond value' →
          bond.Follows Eq (Run.pictureWithin fuel path value)
            (Run.pictureWithin fuel path value') :=
        fun halike => ih path halike
      cases halike with
      | list ref =>
          exact (items ref).bind fun _ _ hitems =>
            (picturesOf hinner hitems).bindEq fun _ => pure rfl
      | record hsight =>
          exact (pairsIn (.record hsight)).bind fun _ _ hpairs =>
            (fieldPictures hinner hpairs).bindEq fun _ => pure rfl
      | location hserial hline hcolumn hoffset =>
          exact (locationPicture hinner (.location hserial hline hcolumn hoffset)).bindEq
            fun _ => pure rfl
      | span hserial hstart hstop =>
          exact (spanPicture hinner (.span hserial hstart hstop)).bindEq fun _ => pure rfl
      | node id =>
          unfold Run.pictureWithin
          dsimp only
          split
          next => exact pure rfl
          next => exact nodePicture (fun halike => ih _ halike) _ id
      | host hid =>
          refine (host hid).bind fun host host' hhost => ?_
          rw [hhost.hostClass]
          exact pure rfl
      | bound hserial receiver hcallable =>
          have hname := (Value.Alike.bound hserial receiver hcallable).callableName
          unfold Run.pictureWithin
          dsimp only
          rw [hname]
          exact pure rfl
      | _ => exact pure rfl

theorem picture (halike : value.Alike bond value') :
    bond.Follows Eq (Run.picture value) (Run.picture value') :=
  pictureWithin _ [] halike

end Bond.Follows

end Rulebook
