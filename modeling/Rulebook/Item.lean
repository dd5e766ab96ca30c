import Rulebook.Kernel

/-!
# What is in a value

Lists, records, texts and byte strings hold other values, and so does what a pattern found. An
index counts from the beginning or, below zero, from the end; a record is asked by key. A value that
holds nothing, or not in that way, is a fault: of type where a question was asked in general, and of
a missing attribute where it was asked by the name of a method.
-/

namespace Rulebook.Run

/-- The place that an index means among `length` items, if there is one. -/
def placeOf? (length : Nat) (index : Int) : Option Nat :=
  let place := if index < 0 then index + length else index
  if 0 ≤ place ∧ place < length then some place.toNat else none

/-- The bytes of a byte string. -/
def byteValues (bytes : String) : List Value := bytes.toList.map fun char => .int char.toNat

/-- The characters of a text. -/
def charValues (text : String) : List Value := text.toList.map fun char => .ofChars [char]

/-- The key of a value, which has to have one. -/
def keyOf (value : Value) : Run Key :=
  match value.key? with
  | some key => return key
  | none => fail .wrongType

/-! ## Groups of what a pattern found -/

/-- The text of a group that took part, or null. -/
def groupValue (pattern : Pattern) : Option (List Char) → Value
  | some chars => pattern.valueOf chars
  | none => .null

/-- Why there is no group under what is neither a whole number nor a text. The plain dialect asks
the names of the groups for it first, if there are any, and then it has to have a key. -/
def strangeGroup (pattern : Pattern) (hasKey isBytes : Bool) : Fault :=
  match pattern.dialect with
  | .plain => if !pattern.names.isEmpty && !hasKey then .wrongType else .noGroup
  | .extended => if isBytes then .noGroup else .wrongType

/-- The text of a group of what a pattern found, by its number or its name. -/
def groupOf (pattern : Pattern) (found : Pattern.Match) (index : Value) : Run Value :=
  let group := match index, index.index? with
    | _, some index => if index < 0 then none else found.group? index.toNat
    | .text name, none => found.named? name
    | _, none => none
  match group, index with
  | some group, _ => return groupValue pattern group
  | none, .bool _ | none, .int _ | none, .text _ => fail .noGroup
  | none, .bytes _ => fail (strangeGroup pattern true true)
  | none, index => fail (strangeGroup pattern index.key?.isSome false)

/-- The whole match and its groups. -/
def groupsOf (pattern : Pattern) (found : Pattern.Match) : List Value :=
  (some found.text :: found.groups).map (groupValue pattern)

/-! ## Questions and changes -/

/-- How many values a value holds. -/
def lengthOf (value : Value) : Run Nat :=
  match value with
  | .list ref => do return (← items ref).size
  | .record ref => do return (← record ref).size
  | .text value | .bytes value => return value.length
  | .found _ pattern found =>
    if pattern.dialect = .extended then return (groupsOf pattern found).length
    else fail .wrongType
  | _ => fail .wrongType

/-- The values that a value gives one after another: a record gives the names of its entries. -/
def valuesIn (value : Value) : Run (List Value) :=
  match value with
  | .list ref => do return (← items ref).toList
  | .record ref => do return (← record ref).values.map Entry.name
  | .text text => return charValues text
  | .bytes bytes => return byteValues bytes
  | _ => fail .wrongType

/-- Whether a machine word holds a number. -/
def fitsWord (number : Int) : Bool :=
  -0x8000000000000000 ≤ number && number < 0x8000000000000000

/-- The place that a value means among `length` items. -/
def placeAt (length : Nat) (missing : Fault) (index : Value) : Run Nat :=
  match index.index? with
  | none => fail .wrongType
  | some index =>
    if !fitsWord index then fail .hugeIndex
    else
      match placeOf? length index with
      | some place => return place
      | none => fail missing

/-- The value at an index of a list of values. -/
def atIndex (values : Array Value) (missing : Fault) (index : Value) : Run Value := do
  return values.getD (← placeAt values.size missing index) .null

/-- The value that a value holds at an index or under a key. -/
def getItem (value index : Value) : Run Value :=
  match value with
  | .list ref => do atIndex (← items ref) .noListItem index
  | .text text => atIndex (charValues text).toArray .noCharacter index
  | .bytes bytes => atIndex (byteValues bytes).toArray .noByte index
  | .record ref => do
    let key ← keyOf index
    match (← record ref).get? key with
    | some entry => return entry.value
    | none => do fail (.missingKey (← plainText index))
  | .found _ pattern found => groupOf pattern found index
  | _ => fail .wrongType

/-- Writes the value that a value holds at an index or under a key. -/
def setItem (value index content : Value) : Run Unit :=
  match value with
  | .list ref => do
    let place ← placeAt (← items ref).size .noListPlace index
    changeItems ref fun values => values.setIfInBounds place content
  | .record ref => do
    let key ← keyOf index
    changeRecord ref fun record => record.write key index content
  | _ => fail .wrongType

/-- What is left of a value from a place on. -/
def restOf (value : Value) (place : Nat) : Run Value :=
  match value with
  | .text text => return .ofChars (text.toList.drop place)
  | .bytes bytes => return .bytes (String.ofList (bytes.toList.drop place))
  | .list ref => do
    let values ← items ref
    newList (values.extract place values.size)
  | .found _ pattern found =>
    if pattern.dialect = .extended then newList ((groupsOf pattern found).drop place).toArray
    else fail (strangeGroup pattern false false)
  | _ => fail .wrongType

/-- Puts a value at the end of a list, or hands it to whatever takes values like a list. -/
def append (kernel : Kernel) (value item : Value) : Run Unit :=
  match value with
  | .list ref => changeItems ref fun values => values.push item
  | value => do
    let _ ← kernel.send value "append" [item]

/-- Takes the last value off a list. -/
def takeLast (value : Value) : Run Value :=
  match value with
  | .list ref => do
    match (← items ref).back? with
    | some last =>
      changeItems ref Array.pop
      return last
    | none => fail .emptyList
  | .record _ => fail .wrongType
  | value => lacks value "pop"

/-- The value that a record holds under a key, or null. -/
def entryOrNull (value index : Value) : Run Value :=
  match value with
  | .record ref => do
    let key ← keyOf index
    return (((← record ref).get? key).map Entry.value).getD .null
  | value => lacks value "get"

/-- Takes an entry out of a record and gives its value, or null if it is not there; what is no
record is asked for it. -/
def takeEntry (kernel : Kernel) (value index : Value) : Run Value :=
  match value with
  | .record ref => do
    let key ← keyOf index
    let found := (← record ref).get? key
    changeRecord ref fun record => record.erase key
    return (found.map Entry.value).getD .null
  | .list _ => fail .wrongType
  | value => kernel.send value "pop" [index, .null]

/-- The entries of a record as pairs of name and value. -/
def pairsIn (value : Value) : Run (List (Value × Value)) :=
  match value with
  | .record ref => do
    return (← record ref).values.map fun entry => (entry.name, entry.value)
  | value => lacks value "items"

/-! ## Copies of records -/

/-- The record with entries written into it from values that are pairs, counted from `index` on. -/
def writePairs (index : Nat) (record : Record) : List Value → Run Record
  | [] => return record
  | pair :: rest => do
    match ← valuesIn pair with
    | [name, value] => do
      let key ← keyOf name
      writePairs (index + 1) (record.write key name value) rest
    | values => fail (.noPair index values.length)

/-- The content of a new record made from a value: a copy of a record, or what pairs say. -/
def recordFrom (value : Value) : Run Record :=
  match value with
  | .record ref => record ref
  | value => do writePairs 0 .empty (← valuesIn value)

end Rulebook.Run
