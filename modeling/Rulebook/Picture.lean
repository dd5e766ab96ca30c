import Rulebook.Attribute

/-!
# Pictures

A picture is a datum that shows a value from outside. A node is shown with everything below it and
in its notes; a node met again inside itself is shown by how many nodes up it stands, and a node
shown inside one that is not its parent is marked as detached. What cannot be shown, such as a
position without a start or a record inside itself, is a fault.
-/

namespace Rulebook

/-- Characters as a text. -/
def charsPicture (chars : List Char) : Datum := .text (String.ofList chars)

/-- A text or a byte string, given by its characters. -/
def stringPicture (binary : Bool) (text : String) : Datum :=
  if binary then .record [("bytes", .text text)] else .text text

/-- The text of a group, which may be missing. -/
def groupPicture (binary : Bool) : Option (List Char) → Datum
  | none => .null
  | some chars => stringPicture binary (String.ofList chars)

/-- What a pattern found. -/
def matchPicture (pattern : Pattern) (found : Pattern.Match) : Datum :=
  let group := groupPicture pattern.binary
  .record
    [("text", group (some found.text)),
      ("span", .list [.int found.start, .int found.stop]),
      ("groups", .list (found.groups.map group)),
      ("named", .record (found.names.map fun (name, _) =>
        (name, group (found.named? name).join)))]

/-- The word for a dialect. -/
def Dialect.word : Dialect → String
  | .plain => "re"
  | .extended => "regex"

/-- A pattern with its source and its flags. -/
def patternPicture (pattern : Pattern) : Datum :=
  .record
    [("pattern", stringPicture pattern.binary pattern.source),
      ("lib", .text pattern.dialect.word),
      ("flags", charsPicture (pattern.flags.letters pattern.dialect))]

/-- A name in a record as the name of a field. -/
def fieldName (world : World) : Value → String
  | .null => "null"
  | .bool value => if value then "true" else "false"
  | name => world.plainText name

namespace Run

/-- The pictures of values in order. -/
def picturesOf (draw : Value → Run Datum) : List Value → Run (List Datum)
  | [] => return []
  | value :: rest => do
    let picture ← draw value
    return picture :: (← picturesOf draw rest)

/-- The pictures of named values in order. -/
def fieldPictures (draw : Value → Run Datum) :
    List (Value × Value) → Run (List (String × Datum))
  | [] => return []
  | (name, value) :: rest => do
    let picture ← draw value
    let world ← get
    return (fieldName world name, picture) :: (← fieldPictures draw rest)

/-- A location in its three parts. -/
def locationPicture (draw : Value → Run Datum) (location : Value) : Run Datum := do
  let line ← attributeOf location "line"
  let column ← attributeOf location "column"
  let offset ← attributeOf location "offset"
  return .list (← picturesOf draw [line, column, offset])

/-- A span in its two locations. -/
def spanPicture (draw : Value → Run Datum) (span : Value) : Run Datum := do
  let start ← locationPicture draw (← attributeOf span "start")
  let stop ← locationPicture draw (← attributeOf span "end")
  return .list [start, stop]

/-- The notes of a node, where there are any. -/
def notesPicture (draw : Value → Run Datum) (notes : Value) : Run (List (String × Datum)) := do
  if ← isSet notes then
    return [("meta", .record (← fieldPictures draw (← pairsIn notes)))]
  else return []

/-- A node. `parent` is the innermost node around it. -/
def nodePicture (draw : Value → Run Datum) (parent : Option NodeId) (id : NodeId) : Run Datum := do
  let cell ← cell id
  let label ← draw cell.label
  let val ← draw cell.val
  let position ←
    if ← isSet cell.position then spanPicture draw cell.position else draw cell.position
  let children ← picturesOf draw (← valuesIn cell.children)
  let notes ← notesPicture draw cell.notes
  let detached := parent.any fun parent => !cell.parent.same (.node parent)
  return .record (
    [("type", label), ("val", val), ("pos", position), ("nodes", .list children)] ++ notes ++
      (if detached then [("detached", .bool true)] else []))

/-- A value inside the nodes of `path`, the nearest first. -/
def pictureWithin : Nat → List NodeId → Value → Run Datum
  | 0, _, _ => fail .tooDeep
  | fuel + 1, path, value =>
    let inner := pictureWithin fuel path
    match value with
    | .null => return .null
    | .bool value => return .bool value
    | .int value => return .int value
    | .decimal value => return .decimal value
    | .text value => return .text value
    | .bytes value => return .record [("bytes", .text value)]
    | .list ref => do return .list (← picturesOf inner (← items ref).toList)
    | .record ref => do return .record (← fieldPictures inner (← pairsIn (.record ref)))
    | .location _ _ _ _ => do return .record [("loc", ← locationPicture inner value)]
    | .span _ _ _ => do return .record [("span", ← spanPicture inner value)]
    | .node id =>
      match path.idxOf? id with
      | some distance => return .record [("cycle", .int (distance + 1))]
      | none => nodePicture (pictureWithin fuel (id :: path)) path.head? id
    | .host id => do return .record [("obj", .text (← host id).hostClass.name)]
    | .found _ pattern found => return matchPicture pattern found
    | .pattern pattern => return patternPicture pattern
    | .kind kind => return .record [("kind", .text kind.word)]
    | callable => return .record [("fn", .text (World.callableName callable))]

/-- How deeply a picture can be nested. -/
def pictureDepth : Nat := 1000

/-- A value from outside. -/
def picture (value : Value) : Run Datum := pictureWithin pictureDepth [] value

end Run

end Rulebook
