import Rulebook.World

/-!
# Equality of values

Numbers of the same size are equal, and so are lists with equal items, records with equal entries in
whatever order, and nodes of equal labels, values, positions and children. Everything else is equal
only if it is the same or made of equal parts. Values can be inside themselves, so comparing two of
them need not come to an end.
-/

namespace Rulebook.World

/-- Whether two lists are equal, given that of values. -/
def equalLists (equal : Value → Value → Option Bool) : List Value → List Value → Option Bool
  | [], [] => some true
  | one :: rest, other :: more =>
    match equal one other with
    | some true => equalLists equal rest more
    | verdict => verdict
  | _, _ => some false

/-- Whether two lists are equal; they are not if they differ in length, whatever is in them. -/
def equalItems (equal : Value → Value → Option Bool) (first second : List Value) : Option Bool :=
  if first.length = second.length then equalLists equal first second else some false

/-- Whether every entry is in the other record with an equal value. -/
def equalEntries (equal : Value → Value → Option Bool) (second : Record) :
    List (Key × Entry) → Option Bool
  | [] => some true
  | (key, entry) :: rest =>
    match second.get? key with
    | none => some false
    | some other =>
      match equal entry.value other.value with
      | some true => equalEntries equal second rest
      | verdict => verdict

/-- Whether two values are equal: numbers of the same size are, lists with equal items, records
with equal entries in whatever order, nodes of equal labels, values, positions and children, and
everything else only if it is the same or made of equal parts. Comparing two values inside the
comparison of themselves never ends. -/
def equalWithin (world : World) : Nat → List (Value × Value) → Value → Value → Option Bool
  | 0, _, _, _ => none
  | fuel + 1, path, first, second =>
    let repeats := path.any fun pair => pair.1.same first && pair.2.same second
    let inner := equalWithin world fuel ((first, second) :: path)
    if first.same second then some true
    else if repeats then none
    else
      match first, second with
      | .list one, .list other =>
        equalItems inner (world.items one).toList (world.items other).toList
      | .record one, .record other =>
        let fields := world.record one
        if fields.size = (world.record other).size then
          equalEntries inner (world.record other) fields.entries
        else some false
      | .location _ line column offset, .location _ otherLine otherColumn otherOffset =>
        equalItems inner [line, column, offset] [otherLine, otherColumn, otherOffset]
      | .span _ start stop, .span _ otherStart otherStop =>
        equalItems inner [start, stop] [otherStart, otherStop]
      | .node one, .node other =>
        let cell := world.cell one
        let cell' := world.cell other
        equalItems inner [cell.label, cell.val, cell.position, cell.children]
          [cell'.label, cell'.val, cell'.position, cell'.children]
      | .pattern _, .pattern _ => some (first.key? == second.key?)
      | .bound _ receiver callable, .bound _ otherReceiver otherCallable =>
        if receiver = otherReceiver then inner callable otherCallable else some false
      | .method _ receiver name, .method _ otherReceiver otherName =>
        some (name == otherName && receiver.same otherReceiver)
      | first, second =>
        match first.number?, second.number? with
        | some one, some other => some (one.sameNumber other)
        | _, _ => some false

/-- Whether two values are equal, if that can be found out. -/
def equal? (world : World) (first second : Value) : Option Bool :=
  world.equalWithin (world.extent + 1) [] first second

end Rulebook.World
