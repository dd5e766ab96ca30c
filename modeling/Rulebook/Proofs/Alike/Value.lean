import Mathlib.Data.List.Forall2
import Rulebook.Host
import Rulebook.Notice

/-!
# Alike values

Two runs that go the same way need not use the same numbers for what they make anew. A bond says
which serial numbers of one run stand for which of the other. Values are alike if they differ in
such numbers alone. One thing is kept out of sight, and values that are alike do not refer to it:
the registry of patterns of one parser, and then no callback in them reads a registry; or one host
with all that it was made with.

Values that are alike answer every question in the same way, and have keys that are alike.
-/

theorem Option.Rel.cases {α β : Type} {rel : α → β → Prop} {one : Option α} {two : Option β}
    (hrel : Option.Rel rel one two) :
    (one = .none ∧ two = .none) ∨ ∃ value other, one = .some value ∧ two = .some other ∧
      rel value other := by
  cases hrel with
  | none => exact .inl ⟨rfl, rfl⟩
  | some hrel => exact .inr ⟨_, _, rfl, rfl, hrel⟩

theorem Option.Rel.map {α β γ δ : Type} {rel : α → β → Prop} {after : γ → δ → Prop}
    {one : Option α} {two : Option β} {change : α → γ} {change' : β → δ}
    (hrel : Option.Rel rel one two)
    (hchange : ∀ {value other}, rel value other → after (change value) (change' other)) :
    Option.Rel after (one.map change) (two.map change') := by
  cases hrel with
  | none => exact .none
  | some hrel => exact .some (hchange hrel)

theorem Option.Rel.mono {α β : Type} {rel wider : α → β → Prop} {one : Option α} {two : Option β}
    (hrel : Option.Rel rel one two)
    (hwider : ∀ {value other}, rel value other → wider value other) :
    Option.Rel wider one two := by
  cases hrel with
  | none => exact .none
  | some hrel => exact .some (hwider hrel)

theorem Option.Rel.getD {α β : Type} {rel : α → β → Prop} {one : Option α} {two : Option β}
    (hrel : Option.Rel rel one two) {standard : α} {standard' : β}
    (hstandard : rel standard standard') : rel (one.getD standard) (two.getD standard') := by
  cases hrel with
  | none => exact hstandard
  | some hrel => exact hrel

theorem Option.Rel.eq {α : Type} {rel : α → α → Prop} {one two : Option α}
    (hrel : Option.Rel rel one two) (heq : ∀ {value other}, rel value other → value = other) :
    one = two := by
  cases hrel with
  | none => rfl
  | some hrel => rw [heq hrel]

theorem Option.Rel.isSome {α β : Type} {rel : α → β → Prop} {one : Option α} {two : Option β}
    (hrel : Option.Rel rel one two) : one.isSome = two.isSome := by
  cases hrel <;> rfl

namespace Rulebook

/-! ## Scripts that leave a field alone -/

mutual

/-- Whether no callback that an expression makes reads a field. -/
def Term.avoids (field : String) : Term → Bool
  | .callback _ body => avoidsAll field body
  | .datum _ | .var _ | .bytes _ | .pattern _ _ _ _ => true

/-- Whether a condition does not read a field. -/
def Cond.avoids (field : String) : Cond → Bool
  | .not condition => condition.avoids field
  | .present term => term.avoids field
  | .equal first second => first.avoids field && second.avoids field

/-- Whether a statement and the callbacks it makes do not read a field. -/
def Stmt.avoids (field : String) : Stmt → Bool
  | .give result => result.avoids field
  | .leave | .raise _ _ => true
  | .trace term => term.avoids field
  | .branch condition yes no =>
    condition.avoids field && avoidsAll field yes && avoidsAll field no
  | .loop body => avoidsAll field body
  | .attempt body _ handler => avoidsAll field body && avoidsAll field handler
  | .act action _ => action.avoids field

/-- Whether an action does not read a field. -/
def Action.avoids (field : String) : Action → Bool
  | .call _ arguments named | .send _ _ arguments named =>
    termsAvoid field arguments && namedAvoid field named
  | .read _ other => other != field
  | .write _ _ term => term.avoids field
  | .drop _ _ => true

/-- Whether statements do not read a field. -/
def avoidsAll (field : String) : List Stmt → Bool
  | [] => true
  | statement :: rest => statement.avoids field && avoidsAll field rest

/-- Whether expressions do not read a field. -/
def termsAvoid (field : String) : List Term → Bool
  | [] => true
  | term :: rest => term.avoids field && termsAvoid field rest

/-- Whether named expressions do not read a field. -/
def namedAvoid (field : String) : List (String × Term) → Bool
  | [] => true
  | (_, term) :: rest => term.avoids field && namedAvoid field rest

end

/-! ## Bonds -/

/-- What two runs have each of its own: the host under one number, and the notices from before. -/
structure Apart where
  one : Host
  other : Host
  noticed : Array Notice
  noticed' : Array Notice

/-- Which serial numbers of two runs stand for each other, one for one, and the parser whose
registry of patterns is kept out of sight. -/
structure Bond where
  Pairs : Nat → Nat → Prop
  unique : Relator.BiUnique Pairs
  parser : HostId
  /-- What the two runs have in the place of that parser, if not the registry alone is kept out of
  sight but everything about it. -/
  apart : Option Apart := none

namespace Bond

/-- The record that is kept out of sight. -/
def registry (bond : Bond) : RecordRef := .patterns bond.parser

/-- Whether a host is in sight. -/
def Sees (bond : Bond) (id : HostId) : Prop := bond.apart = none ∨ id ≠ bond.parser

/-- Whether a record is in sight. -/
def Shows (bond : Bond) : RecordRef → Prop
  | .options id | .rules id => bond.Sees id
  | .patterns id => id ≠ bond.parser
  | .notes _ | .made _ => True

/-- Whether callbacks may have a body: where a registry is kept out of sight they do not read
one. -/
def permits (bond : Bond) (body : List Stmt) : Bool := bond.apart.isSome || avoidsAll "regex" body

/-- A condition is met where a registry is kept out of sight. -/
def Asks (bond : Bond) (condition : Bool) : Prop := bond.apart = none → condition = true

/-- A bond that pairs more numbers. -/
structure Le (bond wider : Bond) : Prop where
  pairs : ∀ {one other}, bond.Pairs one other → wider.Pairs one other
  parser : bond.parser = wider.parser
  apart : bond.apart = none ↔ wider.apart = none

variable {bond wider : Bond}

theorem permits_iff {body : List Stmt} :
    bond.permits body = true ↔ bond.Asks (avoidsAll "regex" body) := by
  rw [permits, Asks]
  cases bond.apart <;> simp

theorem Asks.both {one other : Bool} (hboth : bond.Asks (one && other)) :
    bond.Asks one ∧ bond.Asks other :=
  ⟨fun hnone => (Bool.and_eq_true_iff.mp (hboth hnone)).1,
    fun hnone => (Bool.and_eq_true_iff.mp (hboth hnone)).2⟩

theorem shows_patterns (bond : Bond) (id : HostId) :
    bond.Shows (.patterns id) ∨ bond.registry = .patterns id := by
  by_cases heq : id = bond.parser
  · exact .inr (by rw [registry, heq])
  · exact .inl heq

namespace Le

theorem sees_iff (hwider : bond.Le wider) {id : HostId} : bond.Sees id ↔ wider.Sees id := by
  rw [Sees, Sees, hwider.apart, hwider.parser]

theorem shows_iff (hwider : bond.Le wider) {ref : RecordRef} :
    bond.Shows ref ↔ wider.Shows ref := by
  cases ref with
  | options | rules => exact hwider.sees_iff
  | patterns id => rw [Shows, Shows, hwider.parser]
  | notes | made => exact Iff.rfl

theorem permits (hwider : bond.Le wider) {body : List Stmt} (hbody : bond.permits body = true) :
    wider.permits body = true :=
  permits_iff.mpr fun hnone => permits_iff.mp hbody (hwider.apart.mpr hnone)

end Le

end Bond

/-- Two values differ in serial numbers alone, and keep to what is in sight. -/
inductive Value.Alike (bond : Bond) : Value → Value → Prop
  | null : Alike bond .null .null
  | bool (value : Bool) : Alike bond (.bool value) (.bool value)
  | int (value : Int) : Alike bond (.int value) (.int value)
  | decimal (value : Text.Decimal) : Alike bond (.decimal value) (.decimal value)
  | text (value : String) : Alike bond (.text value) (.text value)
  | bytes (value : String) : Alike bond (.bytes value) (.bytes value)
  | list (ref : ListRef) : Alike bond (.list ref) (.list ref)
  | record {ref : RecordRef} (hsight : bond.Shows ref) : Alike bond (.record ref) (.record ref)
  | location {one other : Nat} (hserial : bond.Pairs one other)
      {line line' column column' offset offset' : Value} (hline : Alike bond line line')
      (hcolumn : Alike bond column column') (hoffset : Alike bond offset offset') :
      Alike bond (.location one line column offset) (.location other line' column' offset')
  | span {one other : Nat} (hserial : bond.Pairs one other) {start start' stop stop' : Value}
      (hstart : Alike bond start start') (hstop : Alike bond stop stop') :
      Alike bond (.span one start stop) (.span other start' stop')
  | node (id : NodeId) : Alike bond (.node id) (.node id)
  | host {id : HostId} (hsight : bond.Sees id) : Alike bond (.host id) (.host id)
  | found {one other : Nat} (hserial : bond.Pairs one other) (pattern : Pattern)
      (value : Pattern.Match) : Alike bond (.found one pattern value) (.found other pattern value)
  | pattern (value : Pattern) : Alike bond (.pattern value) (.pattern value)
  | kind (value : HostKind) : Alike bond (.kind value) (.kind value)
  | callback {one other : Nat} (hserial : bond.Pairs one other) (name : String) {body : List Stmt}
      (hbody : bond.permits body = true) :
      Alike bond (.callback one name body) (.callback other name body)
  | patternRule {one other : Nat} (hserial : bond.Pairs one other) (name : String)
      {label label' pattern pattern' : Value} (hlabel : Alike bond label label')
      (hpattern : Alike bond pattern pattern') :
      Alike bond (.patternRule one name label pattern) (.patternRule other name label' pattern')
  | stamp {one other : Nat} (hserial : bond.Pairs one other) {parser : HostId}
      (hsight : bond.Sees parser) {start start' : Value} (hstart : Alike bond start start') :
      Alike bond (.stamp one parser start) (.stamp other parser start')
  | plugin {one other : Nat} (hserial : bond.Pairs one other) :
      Alike bond (.plugin one) (.plugin other)
  | captureRule : Alike bond .captureRule .captureRule
  | forward : Alike bond .forward .forward
  | bound {one other : Nat} (hserial : bond.Pairs one other) {receiver : HostId}
      (hsight : bond.Sees receiver) {callable callable' : Value}
      (hcallable : Alike bond callable callable') :
      Alike bond (.bound one receiver callable) (.bound other receiver callable')
  | method {one other : Nat} (hserial : bond.Pairs one other) {receiver receiver' : Value}
      (hreceiver : Alike bond receiver receiver') (name : String) :
      Alike bond (.method one receiver name) (.method other receiver' name)

/-- Two keys differ in serial numbers alone. -/
inductive Key.Alike (bond : Bond) : Key → Key → Prop
  | null : Alike bond .null .null
  | number (value : Text.Decimal) : Alike bond (.number value) (.number value)
  | text (value : String) : Alike bond (.text value) (.text value)
  | bytes (value : String) : Alike bond (.bytes value) (.bytes value)
  | location {line line' column column' offset offset' : Key} (hline : Alike bond line line')
      (hcolumn : Alike bond column column') (hoffset : Alike bond offset offset') :
      Alike bond (.location line column offset) (.location line' column' offset')
  | span {start start' stop stop' : Key} (hstart : Alike bond start start')
      (hstop : Alike bond stop stop') : Alike bond (.span start stop) (.span start' stop')
  | node (id : NodeId) : Alike bond (.node id) (.node id)
  | host (id : HostId) : Alike bond (.host id) (.host id)
  | found {one other : Nat} (hserial : bond.Pairs one other) :
      Alike bond (.found one) (.found other)
  | pattern (dialect : Dialect) (source : String) (binary : Bool) (flags : Flags) :
      Alike bond (.pattern dialect source binary flags) (.pattern dialect source binary flags)
  | kind (value : HostKind) : Alike bond (.kind value) (.kind value)
  | function {one other : Nat} (hserial : bond.Pairs one other) :
      Alike bond (.function one) (.function other)
  | captureRule : Alike bond .captureRule .captureRule
  | forward : Alike bond .forward .forward
  | bound (receiver : HostId) {callable callable' : Key}
      (hcallable : Alike bond callable callable') :
      Alike bond (.bound receiver callable) (.bound receiver callable')
  | method {receiver receiver' : Key} (hreceiver : Alike bond receiver receiver') (name : String) :
      Alike bond (.method receiver name) (.method receiver' name)

variable {bond wider : Bond} {value value' other other' : Value}

/-! ## Questions about values that are alike -/

theorem Bond.eq_iff {one one' two two' : Nat} (hone : bond.Pairs one one')
    (htwo : bond.Pairs two two') : one = two ↔ one' = two' :=
  Relator.rel_eq bond.unique hone htwo

theorem Bond.beq_eq {one one' two two' : Nat} (hone : bond.Pairs one one')
    (htwo : bond.Pairs two two') : (one == two) = (one' == two') := by
  rw [Bool.eq_iff_iff, beq_iff_eq, beq_iff_eq]
  exact bond.eq_iff hone htwo

namespace Value.Alike

theorem mono (halike : value.Alike bond value') (hwider : bond.Le wider) :
    value.Alike wider value' := by
  induction halike with
  | null => exact .null
  | bool value => exact .bool value
  | int value => exact .int value
  | decimal value => exact .decimal value
  | text value => exact .text value
  | bytes value => exact .bytes value
  | list ref => exact .list ref
  | record hsight => exact .record (hwider.shows_iff.mp hsight)
  | location hserial _ _ _ hline hcolumn hoffset =>
      exact .location (hwider.pairs hserial) hline hcolumn hoffset
  | span hserial _ _ hstart hstop => exact .span (hwider.pairs hserial) hstart hstop
  | node id => exact .node id
  | host hsight => exact .host (hwider.sees_iff.mp hsight)
  | found hserial pattern value => exact .found (hwider.pairs hserial) pattern value
  | pattern value => exact .pattern value
  | kind value => exact .kind value
  | callback hserial name hbody =>
      exact .callback (hwider.pairs hserial) name (hwider.permits hbody)
  | patternRule hserial name _ _ hlabel hpattern =>
      exact .patternRule (hwider.pairs hserial) name hlabel hpattern
  | stamp hserial hsight _ hstart =>
      exact .stamp (hwider.pairs hserial) (hwider.sees_iff.mp hsight) hstart
  | plugin hserial => exact .plugin (hwider.pairs hserial)
  | captureRule => exact .captureRule
  | forward => exact .forward
  | bound hserial hsight _ hcallable =>
      exact .bound (hwider.pairs hserial) (hwider.sees_iff.mp hsight) hcallable
  | method hserial _ name hreceiver => exact .method (hwider.pairs hserial) hreceiver name

theorem isCallable (halike : value.Alike bond value') : value.isCallable = value'.isCallable := by
  cases halike <;> rfl

theorem index? (halike : value.Alike bond value') : value.index? = value'.index? := by
  cases halike <;> rfl

/-- Values that are alike are the same as what is alike. -/
theorem same (halike : value.Alike bond value') (hother : other.Alike bond other') :
    value.same other = value'.same other' := by
  cases halike <;> cases hother <;> first | rfl | exact bond.beq_eq ‹_› ‹_›

theorem key?_method {serial : Nat} {receiver : Value} (name : String)
    (hreceiver : ∀ id, receiver ≠ .node id) :
    (Value.method serial receiver name).key? = receiver.key?.map (Key.method · name) := by
  rw [Value.key?.eq_def]
  dsimp only
  split
  next id => exact absurd rfl (hreceiver id)
  next => split <;> simp [*]

/-- Values that are alike have keys that are alike, if they have any. -/
theorem key? (halike : value.Alike bond value') :
    Option.Rel (Key.Alike bond) value.key? value'.key? := by
  induction halike with
  | list | record | node => exact .none
  | location _ _ _ _ hline hcolumn hoffset =>
      simp only [Value.key?]
      rcases hline.cases with ⟨hnone, hnone'⟩ | ⟨line, line', hsome, hsome', hline⟩
      · rw [hnone, hnone']
        exact .none
      rcases hcolumn.cases with ⟨hnone, hnone'⟩ | ⟨column, column', hsome₂, hsome₂', hcolumn⟩
      · rw [hsome, hsome', hnone, hnone']
        exact .none
      rcases hoffset.cases with ⟨hnone, hnone'⟩ | ⟨offset, offset', hsome₃, hsome₃', hoffset⟩
      · rw [hsome, hsome', hsome₂, hsome₂', hnone, hnone']
        exact .none
      rw [hsome, hsome', hsome₂, hsome₂', hsome₃, hsome₃']
      exact .some (.location hline hcolumn hoffset)
  | span _ _ _ hstart hstop =>
      simp only [Value.key?]
      rcases hstart.cases with ⟨hnone, hnone'⟩ | ⟨start, start', hsome, hsome', hstart⟩
      · rw [hnone, hnone']
        exact .none
      rcases hstop.cases with ⟨hnone, hnone'⟩ | ⟨stop, stop', hsome₂, hsome₂', hstop⟩
      · rw [hsome, hsome', hnone, hnone']
        exact .none
      rw [hsome, hsome', hsome₂, hsome₂']
      exact .some (.span hstart hstop)
  | bound _ _ _ hcallable =>
      simp only [Value.key?]
      rcases hcallable.cases with ⟨hnone, hnone'⟩ | ⟨callable, callable', hsome, hsome', hkey⟩
      · rw [hnone, hnone']
        exact .none
      · rw [hsome, hsome']
        exact .some (.bound _ hkey)
  | @method _ _ _ receiver receiver' hreceiver name hkey =>
      by_cases hnode : ∃ id, receiver = .node id
      · obtain ⟨id, rfl⟩ := hnode
        cases hreceiver
        exact .some (.method (.node id) name)
      · have hnode' : ¬∃ id, receiver' = .node id := by
          rintro ⟨id, rfl⟩
          cases hreceiver
          exact hnode ⟨id, rfl⟩
        rw [key?_method name fun id heq => hnode ⟨id, heq⟩,
          key?_method name fun id heq => hnode' ⟨id, heq⟩]
        exact hkey.map fun hkey => .method hkey name
  | _ => exact .some (by constructor <;> assumption)

end Value.Alike

/-- Keys that are alike are one key exactly if what they are alike to is one. -/
theorem Key.Alike.eq_iff {key key' other other' : Key} (halike : key.Alike bond key')
    (hother : other.Alike bond other') : key = other ↔ key' = other' := by
  induction halike generalizing other other' with
  | found hserial | function hserial =>
      cases hother with
      | found hother | function hother => simp [bond.eq_iff hserial hother]
      | _ => simp
  | location _ _ _ hline hcolumn hoffset =>
      cases hother with
      | location hline' hcolumn' hoffset' =>
          simp [hline hline', hcolumn hcolumn', hoffset hoffset']
      | _ => simp
  | span _ _ hstart hstop =>
      cases hother with
      | span hstart' hstop' => simp [hstart hstart', hstop hstop']
      | _ => simp
  | bound _ _ hcallable =>
      cases hother with
      | bound _ hcallable' => simp [hcallable hcallable']
      | _ => simp
  | method _ _ hreceiver =>
      cases hother with
      | method hreceiver' => simp [hreceiver hreceiver']
      | _ => simp
  | _ => cases hother <;> simp

theorem Key.biUnique_alike (bond : Bond) : Relator.BiUnique (Key.Alike bond) :=
  ⟨fun _ _ _ hone htwo => (hone.eq_iff htwo).mpr rfl,
    fun _ _ _ hone htwo => (hone.eq_iff htwo).mp rfl⟩

/-! ## Lists -/

section Lists

variable {α β : Type} {rel : α → β → Prop} {xs : List α} {ys : List β}

theorem forall₂_getElem? (hlists : List.Forall₂ rel xs ys) (place : Nat) :
    Option.Rel rel xs[place]? ys[place]? := by
  induction hlists generalizing place with
  | nil => exact .none
  | cons hhead _ ih =>
      cases place with
      | zero => exact .some hhead
      | succ place => simpa using ih place

theorem forall₂_set (hlists : List.Forall₂ rel xs ys) (place : Nat) {x : α} {y : β}
    (hrel : rel x y) : List.Forall₂ rel (xs.set place x) (ys.set place y) := by
  induction hlists generalizing place with
  | nil => exact .nil
  | cons hhead htail ih =>
      cases place with
      | zero => exact .cons hrel htail
      | succ place => exact .cons hhead (ih place)

theorem forall₂_dropLast (hlists : List.Forall₂ rel xs ys) :
    List.Forall₂ rel xs.dropLast ys.dropLast := by
  rw [List.dropLast_eq_take, List.dropLast_eq_take, hlists.length_eq]
  exact List.forall₂_take _ hlists

theorem forall₂_mapIdx {γ δ : Type} {after : γ → δ → Prop} {one : Nat → α → γ}
    {two : Nat → β → δ} (hlists : List.Forall₂ rel xs ys)
    (hrel : ∀ index x y, rel x y → after (one index x) (two index y)) :
    List.Forall₂ after (xs.mapIdx one) (ys.mapIdx two) := by
  induction hlists generalizing one two with
  | nil => exact .nil
  | cons hhead _ ih =>
      rw [List.mapIdx_cons, List.mapIdx_cons]
      exact .cons (hrel 0 _ _ hhead) (ih fun index => hrel (index + 1))

theorem map_eq_of_forall₂ {γ : Type} {one : α → γ} {two : β → γ}
    (hlists : List.Forall₂ rel xs ys) (heq : ∀ {x y}, rel x y → one x = two y) :
    xs.map one = ys.map two := by
  induction hlists with
  | nil => rfl
  | cons hhead _ ih => rw [List.map_cons, List.map_cons, heq hhead, ih]

theorem any_eq_of_forall₂ {one : α → Bool} {two : β → Bool} (hlists : List.Forall₂ rel xs ys)
    (heq : ∀ {x y}, rel x y → one x = two y) : xs.any one = ys.any two := by
  induction hlists with
  | nil => rfl
  | cons hhead _ ih => rw [List.any_cons, List.any_cons, heq hhead, ih]

theorem all_eq_of_forall₂ {one : α → Bool} {two : β → Bool} (hlists : List.Forall₂ rel xs ys)
    (heq : ∀ {x y}, rel x y → one x = two y) : xs.all one = ys.all two := by
  induction hlists with
  | nil => rfl
  | cons hhead _ ih => rw [List.all_cons, List.all_cons, heq hhead, ih]

end Lists

/-! ## Tables -/

/-- Two tables have related entries under related keys in the same order. -/
def Table.Alike {κ ι α β : Type} (keys : κ → ι → Prop) (entries : α → β → Prop)
    (table : Table κ α) (other : Table ι β) : Prop :=
  List.Forall₂ (fun entry entry' => keys entry.1 entry'.1 ∧ entries entry.2 entry'.2)
    table.entries other.entries

namespace Table.Alike

variable {κ ι α β : Type} {keys : κ → ι → Prop} {entries : α → β → Prop} {table : Table κ α}
  {table' : Table ι β}

theorem empty : Alike keys entries (Table.empty : Table κ α) (Table.empty : Table ι β) := .nil

theorem size (halike : Alike keys entries table table') : table.size = table'.size :=
  List.Forall₂.length_eq halike

theorem values (halike : Alike keys entries table table') :
    List.Forall₂ entries table.values table'.values := by
  rw [Table.values, Table.values, List.forall₂_map_left_iff, List.forall₂_map_right_iff]
  exact List.Forall₂.imp (fun _ _ => And.right) halike

theorem isEmpty (halike : Alike keys entries table table') :
    table.entries.isEmpty = table'.entries.isEmpty := by
  obtain ⟨content⟩ := table
  obtain ⟨content'⟩ := table'
  rw [Table.Alike] at halike
  cases halike <;> rfl

variable [DecidableEq κ] [DecidableEq ι] (hkeys : Relator.BiUnique keys)

include hkeys

theorem get? (halike : Alike keys entries table table') {key : κ} {key' : ι}
    (hkey : keys key key') : Option.Rel entries (table.get? key) (table'.get? key') := by
  obtain ⟨content⟩ := table
  obtain ⟨content'⟩ := table'
  rw [Table.get?, Table.get?]
  rw [Table.Alike] at halike
  dsimp only at halike ⊢
  induction halike with
  | nil => exact .none
  | @cons entry entry' _ _ hentry _ ih =>
      obtain ⟨other, _⟩ := entry
      obtain ⟨other', _⟩ := entry'
      have heq : key = other ↔ key' = other' := Relator.rel_eq hkeys hkey hentry.1
      rw [List.lookup_cons, List.lookup_cons]
      by_cases hhere : key = other
      · rw [beq_iff_eq.mpr hhere, beq_iff_eq.mpr (heq.mp hhere)]
        exact .some hentry.2
      · rw [beq_false_of_ne hhere, beq_false_of_ne (mt heq.mpr hhere)]
        exact ih

theorem insert (halike : Alike keys entries table table') {key : κ} {key' : ι}
    (hkey : keys key key') {entry : α} {entry' : β} (hentry : entries entry entry') :
    Alike keys entries (table.insert key entry) (table'.insert key' entry') := by
  obtain ⟨content⟩ := table
  obtain ⟨content'⟩ := table'
  rw [Table.Alike] at halike ⊢
  rw [Table.insert, Table.insert]
  dsimp only at halike ⊢
  induction halike with
  | nil => exact .cons ⟨hkey, hentry⟩ .nil
  | @cons old old' _ _ hold hrest ih =>
      obtain ⟨other, _⟩ := old
      obtain ⟨other', _⟩ := old'
      have heq : other = key ↔ other' = key' := Relator.rel_eq hkeys hold.1 hkey
      rw [insertEntry, insertEntry]
      by_cases hhere : other = key
      · rw [if_pos hhere, if_pos (heq.mp hhere)]
        exact .cons ⟨hkey, hentry⟩ hrest
      · rw [if_neg hhere, if_neg (mt heq.mpr hhere)]
        exact .cons hold ih

theorem erase (halike : Alike keys entries table table') {key : κ} {key' : ι}
    (hkey : keys key key') : Alike keys entries (table.erase key) (table'.erase key') := by
  rw [Table.Alike] at halike ⊢
  rw [Table.erase, Table.erase]
  dsimp only
  refine List.rel_filter ?_ halike
  intro entry entry' hentry
  have heq : entry.1 = key ↔ entry'.1 = key' := Relator.rel_eq hkeys hentry.1 hkey
  simp [heq]

end Table.Alike

end Rulebook
