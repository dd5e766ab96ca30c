import Mathlib.Data.Option.Basic
import Rulebook.Proofs.Law

/-!
# Runs side by side

Two runs go side by side, one that is watched by a law and a freer one. As long as the law is kept
they are the same run, and a condition that survives every lawful move holds all along. Here are the
rules for runs that are put together from others, and one lemma for each method of a host.
-/

namespace Rulebook

open Run

section Pairs

variable {α β : Type} {inv : World → Prop} {world : World}

/-- From a world in which a condition holds, the condition holds when the watched run ends, and the
free run is the same unless the watched one was cut off. -/
def Run.TracksAt (inv : World → Prop) (free watched : Run α) (world : World) : Prop :=
  inv world → inv (watched.outcome world).2 ∧
    ((watched.outcome world).1 = .error .outOfFuel ∨ free.outcome world = watched.outcome world)

/-- From every world, the watched run keeps a condition and the free run goes along with it. -/
def Run.Tracks (inv : World → Prop) (free watched : Run α) : Prop :=
  ∀ world, TracksAt inv free watched world

theorem Run.TracksAt.same {run : Run α} (hrun : inv world → inv (run.outcome world).2) :
    TracksAt inv run run world :=
  fun hinv => ⟨hrun hinv, Or.inr rfl⟩

/-- Where the watched run was not cut off the free run is the same, and the condition holds. -/
theorem Run.TracksAt.ended {free watched : Run α} {result : Except Fault α} {after : World}
    (htracks : TracksAt inv free watched world) (hinv : inv world)
    (hwatched : watched.outcome world = (result, after)) (hended : wasCutOff result = false) :
    free.outcome world = (result, after) ∧ inv after := by
  obtain ⟨hafter, hsame⟩ := htracks hinv
  rw [hwatched] at hafter hsame
  refine ⟨hsame.resolve_left fun hcut => ?_, hafter⟩
  rw [show result = _ from hcut] at hended
  cases hended

theorem Run.Tracks.fail (fault : Fault) : Tracks inv (fail fault : Run α) (fail fault) :=
  fun _ => .same id

theorem Run.Tracks.fail_bind (fault : Fault) {freeNext watchedNext : α → Run β} :
    Tracks inv (Run.fail fault >>= freeNext) (Run.fail fault >>= watchedNext) :=
  fun _ hinv => ⟨hinv, Or.inr rfl⟩

theorem Run.Tracks.pure (value : α) : Tracks inv (pure value : Run α) (pure value) :=
  fun _ => .same id

theorem Run.TracksAt.bind {free watched : Run α} {freeNext watchedNext : α → Run β}
    (hfirst : TracksAt inv free watched world)
    (hnext : ∀ value after, watched.outcome world = (.ok value, after) →
      TracksAt inv (freeNext value) (watchedNext value) after) :
    TracksAt inv (free >>= freeNext) (watched >>= watchedNext) world := by
  intro hinv
  obtain ⟨hafter, hsame⟩ := hfirst hinv
  rw [outcome_bind, outcome_bind]
  rcases hwatched : watched.outcome world with ⟨_ | value, after⟩
  · rw [hwatched] at hafter hsame
    refine ⟨hafter, ?_⟩
    rcases hsame with hcut | hsame
    · cases hcut
      exact Or.inl rfl
    · rw [hsame]
      exact Or.inr rfl
  · rw [hwatched] at hafter hsame
    obtain ⟨hlater, hrest⟩ := hnext value after hwatched hafter
    refine ⟨hlater, ?_⟩
    rcases hsame with hcut | hsame
    · cases hcut
    · rw [hsame]
      exact hrest

theorem Run.Tracks.bind {free watched : Run α} {freeNext watchedNext : α → Run β}
    (hfirst : Tracks inv free watched)
    (hnext : ∀ value, Tracks inv (freeNext value) (watchedNext value)) :
    Tracks inv (free >>= freeNext) (watched >>= watchedNext) :=
  fun world => (hfirst world).bind fun value after _ => hnext value after

/-- Whatever a run does about a fault, it cannot go on after it was cut off. -/
theorem Run.Tracks.observe {free watched : Run α} {freeNext watchedNext : Except Fault α → Run β}
    (hrun : Tracks inv free watched)
    (hcut : ∀ world, ((watchedNext (.error .outOfFuel)).outcome world).1 = .error .outOfFuel)
    (hnext : ∀ result, Tracks inv (freeNext result) (watchedNext result)) :
    Tracks inv (Run.observe free >>= freeNext) (Run.observe watched >>= watchedNext) := by
  intro world hinv
  obtain ⟨hafter, hsame⟩ := hrun world hinv
  obtain ⟨hlater, hrest⟩ := hnext (watched.outcome world).1 _ hafter
  rw [outcome_bind_ok (outcome_observe _ _), outcome_bind_ok (outcome_observe _ _)]
  refine ⟨hlater, ?_⟩
  rcases hsame with hfault | hsame
  · rw [hfault]
    exact Or.inl (hcut _)
  · rw [hsame]
    exact hrest

theorem Run.Tracks.repeatBody {free watched : Run Script.Flow} (hbody : Tracks inv free watched)
    (fuel : Nat) :
    Tracks inv (Script.repeatBody free fuel) (Script.repeatBody watched fuel) := by
  induction fuel with
  | zero => exact .fail _
  | succ fuel ih =>
      refine hbody.bind fun flow => ?_
      split
      next => exact ih
      next => exact .pure _
      next => exact .pure _

end Pairs

/-! ## What looking tells -/

section Looks

variable {world after : World} {id : HostId}

theorem hostPart_ok {name : String} {value : Value}
    (houtcome : (hostPart id name).outcome world = (.ok value, after)) :
    (world.host id).attribute? name = some value ∧ after = world := by
  rw [hostPart, outcome_bind_ok (outcome_host id world)] at houtcome
  split at houtcome
  next found heq =>
    cases houtcome
    exact ⟨heq, rfl⟩
  next => cases houtcome

theorem cursor_ok {lacking : String} {cursor : Cursor}
    (houtcome : (Run.cursor id lacking).outcome world = (.ok cursor, after)) :
    (world.host id).cursor = some cursor ∧ after = world := by
  rw [Run.cursor, outcome_bind_ok (outcome_host id world)] at houtcome
  split at houtcome
  next found heq =>
    cases houtcome
    exact ⟨heq, rfl⟩
  next => cases houtcome

theorem Args.bind_ok {args : Args} {params : List Param} {values : List Value}
    (houtcome : (args.bind params).outcome world = (.ok values, after)) :
    args.bind? params = some values ∧ after = world := by
  rw [Args.bind] at houtcome
  split at houtcome
  next heq =>
    cases houtcome
    exact ⟨heq, rfl⟩
  next => cases houtcome

theorem keyOf_ok {value : Value} {key : Key}
    (houtcome : (keyOf value).outcome world = (.ok key, after)) :
    value.key? = some key ∧ after = world := by
  rw [keyOf] at houtcome
  split at houtcome
  next heq =>
    cases houtcome
    exact ⟨heq, rfl⟩
  next => cases houtcome

theorem lengthOf_list_ok {ref : ListRef} {size : Nat}
    (houtcome : (lengthOf (.list ref)).outcome world = (.ok size, after)) :
    (world.items ref).size = size ∧ after = world := by
  cases houtcome
  exact ⟨rfl, rfl⟩

/-- Lists that hold something stay as they are. -/
theorem World.Quiet.items_eq (hquiet : world.Quiet after) {ref : ListRef}
    (hsize : 0 < (world.items ref).size) : after.items ref = world.items ref := by
  cases ref with
  | children node => rw [World.items, World.items, hquiet.cell_eq]
  | stack number => simp only [World.items, hquiet.openStacks]
  | made number =>
      obtain ⟨more, hmore⟩ := hquiet.lists
      have hlt : number < world.lists.size := by
        by_contra hge
        simp [World.items, Array.getD_eq_getD_getElem?,
          Array.getElem?_eq_none (Nat.le_of_not_lt hge)] at hsize
      simp only [World.items, hmore, Array.getD_eq_getD_getElem?, Array.getElem?_append_left hlt]

end Looks

/-! ## Methods by name -/

/-- The name under which a host's method is called. -/
def HostMethod.name : HostMethod → String
  | .parser method => method.name
  | .facade method => method.name

theorem ParserMethod.name_of_named? {name : String} {method : HostMethod}
    (hmethod : ParserMethod.named? name = some method) : method.name = name := by
  obtain ⟨found, hfound, rfl⟩ := Option.map_eq_some_iff.mp hmethod
  have hname := List.find?_some hfound
  exact eq_of_beq hname

theorem FacadeMethod.name_of_named? {name : String} {method : HostMethod}
    (hmethod : FacadeMethod.named? name = some method) : method.name = name := by
  obtain ⟨found, hfound, rfl⟩ := Option.map_eq_some_iff.mp hmethod
  have hname := List.find?_some hfound
  exact eq_of_beq hname

theorem HostClass.name_of_method? {hostClass : HostClass} {name : String} {method : HostMethod}
    (hmethod : hostClass.method? name = some method) : method.name = name := by
  unfold HostClass.method? at hmethod
  split at hmethod
  next => exact ParserMethod.name_of_named? hmethod
  next => exact ParserMethod.name_of_named? hmethod
  next => exact FacadeMethod.name_of_named? hmethod
  next => exact FacadeMethod.name_of_named? hmethod
  next =>
    rcases (Option.orElse_eq_some _ _ _).mp hmethod with hfacade | ⟨_, hparser⟩
    · exact FacadeMethod.name_of_named? hfacade
    · exact ParserMethod.name_of_named? hparser
  next =>
    rcases (Option.orElse_eq_some _ _ _).mp hmethod with hparser | ⟨_, hfacade⟩
    · exact ParserMethod.name_of_named? hparser
    · exact FacadeMethod.name_of_named? hfacade
  next => cases hmethod

/-- A name that no facade has a method under is that of one method. -/
theorem HostMethod.eq_parser {method : HostMethod} {expected : ParserMethod}
    (hname : method.name = expected.name)
    (hfacade : FacadeMethod.named? expected.name = none) : method = .parser expected := by
  cases method with
  | parser other =>
      have hother := other.named?_name
      rw [show other.name = expected.name from hname, expected.named?_name] at hother
      exact (Option.some.inj hother).symm
  | facade other =>
      have hother : FacadeMethod.named? other.name = some (.facade other) := by cases other <;> rfl
      rw [show other.name = expected.name from hname, hfacade] at hother
      cases hother

section Methods

variable {world : World} {id : HostId} {name : String}

/-- A method that nothing stands before is made anew if the class has one of that name. -/
theorem hostAttribute_method (hplain : isComputed (world.host id) name = false)
    (hmember : (world.host id).attribute? name = none) :
    (hostAttribute id name).outcome world =
      if ((world.host id).hostClass.method? name).isSome then
        (.ok (.method world.serial (.host id) name), world.withSerial (world.serial + 1))
      else (lacks (.host id) name).outcome world := by
  rw [hostAttribute, outcome_bind_ok (outcome_host id world), if_neg (by rw [hplain]; decide),
    hmember]
  cases (world.host id).hostClass.method? name <;> rfl

theorem hostAttribute_ok {value : Value} {after : World}
    (hplain : isComputed (world.host id) name = false)
    (hmember : (world.host id).attribute? name = none)
    (houtcome : (hostAttribute id name).outcome world = (.ok value, after)) :
    (∃ method, (world.host id).hostClass.method? name = some method) ∧
      value = .method world.serial (.host id) name ∧
      after = world.withSerial (world.serial + 1) := by
  rw [hostAttribute_method hplain hmember] at houtcome
  split at houtcome
  next hmethod =>
    cases houtcome
    exact ⟨Option.isSome_iff_exists.mp hmethod, rfl, rfl⟩
  next => cases houtcome

theorem callValue_method (world : World) {kernel : Kernel} {args : Args} {serial : Nat}
    {method : HostMethod}
    (hmethod : (world.host id).hostClass.method? name = some method) :
    (Rulebook.callValue kernel (.method serial (.host id) name) args).outcome world =
      (method.run kernel id args).outcome world := by
  rw [Rulebook.callValue, outcome_bind_ok (outcome_host id world), hmethod]

end Methods

/-- If a call is one that a parser makes by itself, then it is lawful as soon as what is asked of it
holds. -/
def Law.Cleared (law : Law) (caller : Value) (callee : Callee) (args : Args) (world : World) :
    Prop :=
  ∀ callable after, (resolve callee).outcome world = (.ok callable, after) →
    isOwnCall caller callee callable = true →
      law.own callable args after = true → law.call callable args after = true

theorem Law.quiet_resolve (callee : Callee) : (resolve callee).Quiet := by
  cases callee with
  | value => exact quiet_pure _
  | method => exact quiet_attributeOf _ _

theorem Law.Cleared.call {law : Law} {caller callable : Value} {callee : Callee} {args : Args}
    {world after : World} (hcleared : law.Cleared caller callee args world)
    (hresolve : (resolve callee).outcome world = (.ok callable, after))
    (hasks : law.asks caller callee callable args after = true) :
    law.call callable args after = true := by
  unfold Law.asks at hasks
  split at hasks
  next hown => exact hcleared callable after hresolve hown hasks
  next => exact hasks

/-- The calls of a caller under a kernel that is watched by a law go along with those under a freer
one, and a condition survives them and every lawful move. -/
structure Law.Oversees (law : Law) (inv : World → Prop) (caller : Value) (free watched : Kernel) :
    Prop where
  upholds : law.Upholds inv
  lawful : ∃ rounds depth, watched = law.kernel caller rounds depth
  fuel : free.fuel = watched.fuel
  invoke : ∀ callee args world, law.Cleared caller callee args world →
    TracksAt inv (free.invoke callee args) (watched.invoke callee args) world

namespace Law.Oversees

variable {law : Law} {inv : World → Prop} {caller : Value} {free watched : Kernel}
  (hover : law.Oversees inv caller free watched)

include hover

section Rules

variable {α β : Type} {world : World} {run : Run α}

theorem move (hmove : law.Move inv world (run.outcome world).2) : TracksAt inv run run world :=
  .same (hover.upholds.preserves _ _ hmove)

theorem change (hchange : law.Change world (run.outcome world).2) : TracksAt inv run run world :=
  hover.move (.change hchange)

theorem quiet (hrun : run.Quiet) : Tracks inv run run :=
  fun world => hover.change (.quiet (hrun world))

/-- What a quiet run gives is known to what comes after it. -/
theorem look {first : Run α} {freeNext watchedNext : α → Run β} (hfirst : first.Quiet)
    (hnext : ∀ value after, first.outcome world = (.ok value, after) → world.Quiet after →
      TracksAt inv (freeNext value) (watchedNext value) after) :
    TracksAt inv (first >>= freeNext) (first >>= watchedNext) world := by
  refine TracksAt.bind (hover.quiet hfirst world) fun value after houtcome => ?_
  have hquiet := hfirst world
  rw [houtcome] at hquiet
  exact hnext value after houtcome hquiet

theorem after {first : Run α} {freeNext watchedNext : α → Run β} (hfirst : first.Quiet)
    (hnext : ∀ value, Tracks inv (freeNext value) (watchedNext value)) :
    Tracks inv (first >>= freeNext) (first >>= watchedNext) :=
  (hover.quiet hfirst).bind hnext

end Rules

/-! ## Calls -/

/-- What no parser calls by itself needs no clearing. -/
theorem invokeOther {callee : Callee}
    (hother : ∀ callable, isOwnCall caller callee callable = false) (args : Args) :
    Tracks inv (free.invoke callee args) (watched.invoke callee args) :=
  fun world => hover.invoke callee args world fun callable _ _ hown => by
    cases (hother callable).symm.trans hown

theorem call (callable : Value) (values : List Value) :
    Tracks inv (free.call callable values) (watched.call callable values) :=
  hover.invokeOther (fun _ => rfl) _

theorem send (receiver : Value) {name : String}
    (hname : ∀ callable, isOwnCall caller (.method receiver name) callable = false)
    (values : List Value) :
    Tracks inv (free.send receiver name values) (watched.send receiver name values) :=
  hover.invokeOther hname _

theorem sendHost (id : HostId) {name : String}
    (hname : ∀ callable, isOwnCall caller (.method (.host id) name) callable = false)
    (values : List Value) :
    Tracks inv (free.sendHost id name values) (watched.sendHost id name values) :=
  hover.send _ hname _

theorem askLocation (id : HostId) :
    Tracks inv (Parser.askLocation free id) (Parser.askLocation watched id) :=
  hover.sendHost _ (fun _ => rfl) _

/-! ## Parsers -/

theorem append {world : World} {value item : Value}
    (hlist : ∀ ref, value = .list ref →
      law.Move inv world (world.changeItems ref fun values => values.push item)) :
    TracksAt inv (Run.append free value item) (Run.append watched value item) world := by
  unfold Run.append
  split
  next ref => exact hover.move (hlist ref rfl)
  next => exact ((hover.send _ (fun _ => rfl) _).bind fun _ => .pure _) world

theorem reset {world : World} {id : HostId} (input : Value)
    (hcause : (world.host id).root = none ∨
      ∃ serial args, law.call (.method serial (.host id) "reset") args world = true) :
    TracksAt inv (Parser.reset id input) (Parser.reset id input) world :=
  hover.move (.restart id input hcause)

theorem position (id : HostId) :
    Tracks inv (Parser.position free id) (Parser.position watched id) :=
  (hover.askLocation _).bind fun _ => hover.after quiet_fresh fun _ => .pure _

theorem stamp (id : HostId) (start node : Value) :
    Tracks inv (Parser.stamp free id start node) (Parser.stamp watched id start node) :=
  (hover.askLocation _).bind fun _ => hover.after quiet_fresh fun _ =>
    Tracks.bind (fun _ => hover.change (.stamp _ _)) fun _ => .pure _

theorem matchPattern {world : World} {serial : Nat} {id : HostId} {args : Args} {source : Value}
    (hcall : law.call (.method serial (.host id) "match") args world = true)
    (hargs : args.bind? ParserMethod.match.params = some [source]) :
    TracksAt inv (Parser.matchPattern free id source) (Parser.matchPattern watched id source)
      world := by
  intro hbefore
  refine hover.look (quiet_compilePattern _ _) (fun pattern compiled hpattern _ => ?_) hbefore
  refine hover.look (Parser.quiet_charsLeft _ _) fun left looked hleft _ => ?_
  split
  next => exact Tracks.pure _ _
  next found hfound =>
    refine hover.look quiet_fresh fun number numbered hnumber _ => ?_
    cases hnumber
    refine TracksAt.bind (hover.invoke _ _ _ ?_) fun _ after _ => Tracks.pure _ after
    intro callable after hresolve hown
    obtain ⟨_, other, rfl⟩ := isOwnCall_advance hown
    exact hover.upholds.clears (.consume hcall hargs hpattern hleft hfound hresolve) hbefore

theorem newNode (stamp label val : Value) :
    Tracks inv (Parser.newNode free stamp label val) (Parser.newNode watched stamp label val) :=
  Tracks.bind (fun _ => hover.change (.newNode label val .null)) fun _ => hover.call _ _

theorem attachLoose (id : HostId) (node : Value) :
    Tracks inv (Parser.attachLoose free id node) (Parser.attachLoose watched id node) := by
  intro world hbefore
  refine hover.look (quiet_attributeOf _ _) (fun parent looked hparent _ => ?_) hbefore
  split
  next =>
    refine TracksAt.bind (hover.sendHost _ (fun _ => rfl) _ looked) fun place middle hplace => ?_
    refine TracksAt.bind (hover.invoke _ _ _ ?_) fun _ after _ => Tracks.pure _ after
    intro callable after hresolve hown
    obtain ⟨_, other, rfl⟩ := isOwnCall_addNode hown
    obtain ⟨rounds, depth, rfl⟩ := hover.lawful
    exact hover.upholds.clears (.attach hparent hplace hresolve) hbefore
  next => exact Tracks.pure _ _

theorem push {world : World} {serial : Nat} {id : HostId} {args : Args} {node : Value}
    (hcall : law.call (.method serial (.host id) "push") args world = true)
    (hargs : args.bind? ParserMethod.push.params = some [node]) :
    TracksAt inv (Parser.push free id node) (Parser.push watched id node) world := by
  -- the condition holds in the world before, in which the node may still be loose
  intro hbefore
  refine (hover.attachLoose _ _ world).bind (fun _ middle hattached => ?_) hbefore
  refine hover.look (quiet_hostPart _ _) fun stack after hstack _ => ?_
  obtain ⟨hstack, rfl⟩ := hostPart_ok hstack
  refine TracksAt.bind (hover.append ?_) fun _ after _ => Tracks.pure _ after
  rintro ref rfl
  obtain ⟨rounds, depth, rfl⟩ := hover.lawful
  exact .openNode hcall hargs hbefore hattached hstack

theorem noOpenNode (id : HostId) (label : Value) :
    Tracks inv (Parser.noOpenNode free id label) (Parser.noOpenNode watched id label) :=
  (hover.askLocation _).bind fun _ => hover.after (quiet_plainText _) fun _ =>
    hover.after (Parser.quiet_pointer _ _) fun _ => .fail _

theorem takeLast {world : World} {id : HostId} {value : Value}
    (hstack : (world.host id).stack = some value)
    (hsize : ∀ ref, value = .list ref → 2 ≤ (world.items ref).size) :
    TracksAt inv (Run.takeLast value) (Run.takeLast value) world := by
  unfold Run.takeLast
  split
  next ref =>
    refine hover.look (quiet_items ref) fun items after hitems _ => ?_
    cases hitems
    split
    next last _ => exact hover.move (.closeNode hstack (hsize ref rfl))
    next => exact Tracks.fail _ _
  next => exact Tracks.fail _ _
  next => exact hover.quiet (quiet_lacks _ _) world

theorem pop (id : HostId) (label : Value) :
    Tracks inv (Parser.pop free id label) (Parser.pop watched id label) := by
  intro world
  refine hover.look (quiet_hostPart _ _) fun stack after hstack _ => ?_
  obtain ⟨hstack, rfl⟩ := hostPart_ok hstack
  refine hover.look (quiet_lengthOf stack) fun size measured hsize hmeasured => ?_
  split
  next => exact hover.noOpenNode _ _ measured
  next hmany =>
    refine hover.look (quiet_getItem _ _) fun top found _ hfound => ?_
    refine hover.look (quiet_attributeOf _ _) fun other typed _ htyped => ?_
    refine hover.look (quiet_equal _ _) fun verdict compared _ hcompared => ?_
    split
    next =>
      have hquiet := ((hmeasured.trans hfound).trans htyped).trans hcompared
      refine hover.takeLast (hquiet.host_eq id ▸ hstack) ?_
      rintro ref rfl
      obtain ⟨hsize, rfl⟩ := lengthOf_list_ok hsize
      rw [hquiet.items_eq (by omega)]
      omega
    next => exact hover.noOpenNode _ _ compared

theorem apply (id : HostId) (label : Value) :
    Tracks inv (Parser.apply free id label) (Parser.apply watched id label) := by
  refine (hover.sendHost _ (fun _ => rfl) _).bind fun rule =>
    (hover.call _ _).bind fun value => ?_
  split
  next => exact (hover.attachLoose _ _).bind fun _ => .pure _
  next => exact .pure _

theorem tryRules (id : HostId) (labels : List Value) :
    Tracks inv (Parser.tryRules free id labels) (Parser.tryRules watched id labels) := by
  induction labels with
  | nil => exact .pure _
  | cons label rest ih =>
      refine hover.after (quiet_cursor _ _) fun start =>
        (hover.sendHost _ (fun _ => rfl) _).bind fun node =>
          hover.after (quiet_cursor _ _) fun reached => ?_
      split
      next => exact .pure _
      next =>
        split
        next => exact ih
        next => exact hover.after (quiet_plainText _) fun _ => .fail _

theorem complain (id : HostId) :
    Tracks inv (Parser.complain free id) (Parser.complain watched id) :=
  (hover.askLocation _).bind fun _ => hover.after (quiet_hostPart _ _) fun _ =>
    hover.after (quiet_cursor _ _) fun _ => hover.after (Parser.quiet_itemReached _ _) fun _ =>
      hover.after (quiet_spell _) fun _ => hover.after (Parser.quiet_pointer _ _) fun _ => .fail _

theorem step (id : HostId) : Tracks inv (Parser.step free id) (Parser.step watched id) := by
  refine hover.after (quiet_hostPart _ _) fun rules => hover.after (quiet_valuesIn _) fun labels =>
    (hover.tryRules _ _).bind fun moved => ?_
  split
  next => exact .pure _
  next => exact hover.complain _

theorem stepAll (id : HostId) (fuel : Nat) :
    Tracks inv (Parser.stepAll free id fuel) (Parser.stepAll watched id fuel) := by
  induction fuel with
  | zero => exact .fail _
  | succ fuel ih =>
      refine hover.after (quiet_cursor _ _) fun cursor =>
        hover.after (quiet_hostPart _ _) fun input =>
          hover.after (quiet_lengthOf _) fun length => ?_
      split
      next => exact (hover.sendHost _ (fun _ => rfl) _).bind fun _ => ih
      next => exact .pure _

theorem parse (id : HostId) (text : Value) :
    Tracks inv (Parser.parse free id text) (Parser.parse watched id text) := by
  refine (hover.sendHost _ (fun _ => rfl) _).bind fun _ => ?_
  rw [hover.fuel]
  refine (hover.stepAll _ _).bind fun _ => hover.after (quiet_hostPart _ _) fun stack =>
    hover.after (quiet_lengthOf _) fun length => ?_
  split
  next => exact hover.quiet (Parser.quiet_unclosed _)
  next => exact hover.quiet (quiet_hostPart _ _)

theorem advance {world : World} {serial : Nat} {id : HostId} {args : Args} {consumed : Value}
    (hcall : law.call (.method serial (.host id) "_advance_text") args world = true)
    (hargs : args.bind? ParserMethod.advance.params = some [consumed]) :
    TracksAt inv (Parser.advance id consumed) (Parser.advance id consumed) world := by
  unfold Parser.advance
  split
  next consumed =>
    refine hover.look (quiet_cursor _ _) fun cursor after hcursor _ => ?_
    obtain ⟨hcursor, rfl⟩ := cursor_ok hcursor
    exact hover.change (.advance hcall hargs hcursor)
  next => exact Tracks.fail _ _
  next => exact hover.after (quiet_lengthOf _) (fun _ => hover.quiet (quiet_lacks _ _)) world

theorem setItem {world : World} {value index content : Value}
    (hheld : ∀ ref, value = .list ref → (∃ id, (world.cell id).notes = .list ref) ∨
      ∃ id, (world.host id).rules = some (.list ref)) :
    TracksAt inv (Run.setItem value index content) (Run.setItem value index content) world := by
  unfold Run.setItem
  split
  next ref =>
    refine hover.look (quiet_items ref) fun items after hitems _ => ?_
    cases hitems
    refine hover.look (quiet_placeAt _ _ _) fun place after _ hquiet => hover.move ?_
    refine .setListItem place content ?_
    simp only [hquiet.cell_eq, hquiet.host_eq]
    exact hheld ref rfl
  next ref =>
    refine hover.look (quiet_keyOf index) fun key after hkey _ => hover.change ?_
    exact .writeRecord ref content (keyOf_ok hkey).1
  next => exact Tracks.fail _ _

theorem setRule (id : HostId) (label rule : Value) :
    Tracks inv (Parser.setRule id label rule) (Parser.setRule id label rule) := by
  intro world
  refine hover.look (quiet_hostPart _ _) fun rules after hrules _ => hover.setItem ?_
  obtain ⟨hrules, rfl⟩ := hostPart_ok hrules
  rintro ref rfl
  exact Or.inr ⟨id, hrules⟩

theorem defineMember {world before : World} {serial : Nat} {id : HostId} {args : Args}
    {name callable : Value}
    (hcall : law.call (.method serial (.host id) "define") args before = true)
    (hargs : args.bind? [.needed "name", .needed "fn"] = some [name, callable]) :
    TracksAt inv (Rulebook.defineMember id name callable) (Rulebook.defineMember id name callable)
      world := by
  unfold Rulebook.defineMember
  dsimp only
  split
  next => exact Tracks.fail_bind _ world
  next =>
    split
    next name =>
      refine hover.look quiet_fresh fun bound after _ _ => ?_
      exact TracksAt.bind (hover.change (.define hcall hargs)) fun _ after _ => Tracks.pure _ after
    next => exact Tracks.fail _ _

theorem usePlugin (id : HostId) (plugin : Value) :
    Tracks inv (Rulebook.usePlugin free id plugin) (Rulebook.usePlugin watched id plugin) :=
  (hover.call _ _).bind fun _ => .pure _

theorem parserMethod {world : World} {serial : Nat} {id : HostId} {args : Args}
    {method : ParserMethod} {values : List Value}
    (hcall : law.call (.method serial (.host id) method.name) args world = true)
    (hargs : args.bind? method.params = some values) :
    TracksAt inv (method.run free id values) (method.run watched id values) world := by
  unfold ParserMethod.run
  split
  next =>
    exact (hover.reset _ (Or.inr ⟨_, _, hcall⟩)).bind fun _ after _ => Tracks.pure _ after
  next => exact hover.quiet (Parser.quiet_location _) world
  next => exact hover.defineMember hcall hargs
  next => exact hover.usePlugin _ _ world
  next => exact (hover.setRule _ _ _).bind (fun _ => .pure _) world
  next => exact hover.quiet (Parser.quiet_getRule _ _) world
  next => exact hover.position _ world
  next => exact hover.matchPattern hcall hargs
  next => exact hover.newNode _ _ _ world
  next => exact hover.quiet (Parser.quiet_prev _) world
  next => exact hover.push hcall hargs
  next => exact hover.pop _ _ world
  next => exact hover.apply _ _ world
  next => exact hover.parse _ _ world
  next => exact (hover.step _).bind (fun _ => .pure _) world
  next => exact (hover.advance hcall hargs).bind fun _ after _ => Tracks.pure _ after
  next => exact Tracks.fail _ _

theorem facadeMethod {world : World} {serial : Nat} {id : HostId} {args : Args}
    {method : FacadeMethod} {values : List Value}
    (hcall : law.call (.method serial (.host id) method.name) args world = true)
    (hargs : args.bind? method.params = some values) :
    TracksAt inv (method.run free id values) (method.run watched id values) world := by
  unfold FacadeMethod.run
  split
  next => exact hover.defineMember hcall hargs
  next => exact hover.usePlugin _ _ world
  next => exact hover.after (quiet_attributeOf _ _) (fun _ => hover.send _ (fun _ => rfl) _) world
  next => exact Tracks.fail _ _

theorem hostMethod {world : World} {serial : Nat} {id : HostId} {name : String} {args : Args}
    {hostClass : HostClass} {method : HostMethod}
    (hcall : law.call (.method serial (.host id) name) args world = true)
    (hmethod : hostClass.method? name = some method) :
    TracksAt inv (method.run free id args) (method.run watched id args) world := by
  obtain rfl := HostClass.name_of_method? hmethod
  cases method with
  | parser method =>
      refine hover.look (quiet_bindArgs _ _) fun values after hvalues _ => ?_
      obtain ⟨hbound, rfl⟩ := Args.bind_ok hvalues
      exact hover.parserMethod hcall hbound
  | facade method =>
      refine hover.look (quiet_bindArgs _ _) fun values after hvalues _ => ?_
      obtain ⟨hbound, rfl⟩ := Args.bind_ok hvalues
      exact hover.facadeMethod hcall hbound

end Law.Oversees

end Rulebook
