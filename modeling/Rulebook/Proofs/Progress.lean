import Rulebook.Proofs.BracketRule
import Rulebook.Proofs.Complaint
import Rulebook.Proofs.Onward

/-!
# A parse goes on until it ends

Rules are scripts: they run other rules, open and close nodes, and change the table they are tried
from. As long as each of them keeps to the law of reading on and comes to an end, every step of a
parse that completes takes the parser further on in its text, so that there are at most as many
steps as there are characters. A parse returns at the end of the text only, and it fails with a
complaint of its own or with what a rule failed with.
-/

namespace Rulebook

open Run

/-! ## Rules that keep a law -/

/-- The names under which a host has rules, in order. -/
def World.ruleNames (world : World) (id : HostId) : List Value :=
  (world.host id).ownRules.values.map Entry.name

/-- The world after something was made anew. -/
def World.later (world : World) : World := world.withSerial (world.serial + 1)

namespace Law

variable (law : Law) (rounds depth : Nat) (id : HostId)

/-- Whether rules keep a law and come to an end when they are tried in order, until one of them
moves the parser on, gives a node or fails. -/
def keepsTries : List Value → World → Bool
  | [], _ => true
  | label :: rest, world =>
    match ((law.kernel .null rounds (depth + 2)).sendHost id "apply" [label]).outcome world with
    | (.ok .null, after) =>
      (world.host id).offset < (after.host id).offset || keepsTries rest after
    | (result, _) => !wasCutOff result

section Tries

variable {law rounds depth id} {label : Value} {rest : List Value} {world after : World}

/-- A rule that is tried and keeps the law comes to an end. -/
theorem keepsTries_ended {result : Except Fault Value}
    (hkeeps : law.keepsTries rounds depth id (label :: rest) world = true)
    (hwatched : ((law.kernel .null rounds (depth + 2)).sendHost id "apply" [label]).outcome world =
      (result, after)) : wasCutOff result = false := by
  rw [keepsTries, hwatched] at hkeeps
  split at hkeeps
  next heq => cases heq; rfl
  next heq =>
    cases heq
    exact Bool.not_eq_true' _ ▸ hkeeps

/-- After a rule that gave nothing and did not take the parser on, the others keep the law too. -/
theorem keepsTries_rest (hkeeps : law.keepsTries rounds depth id (label :: rest) world = true)
    (hwatched : ((law.kernel .null rounds (depth + 2)).sendHost id "apply" [label]).outcome world =
      (.ok .null, after)) (hback : ¬(world.host id).offset < (after.host id).offset) :
    law.keepsTries rounds depth id rest after = true := by
  rw [keepsTries, hwatched] at hkeeps
  dsimp only at hkeeps
  rwa [decide_eq_false hback, Bool.false_or] at hkeeps

end Tries

/-- Whether the rules that the next steps of a parse try keep a law and come to an end. -/
def keepsSteps (text : String) : Nat → World → Bool
  | 0, _ => true
  | count + 1, world =>
    if (world.host id).offset < text.toList.length then
      law.keepsTries rounds depth id (world.ruleNames id) world.later &&
        match ((Kernel.ofDepth rounds (depth + 3)).sendHost id "_step" []).outcome world with
        | (.ok _, after) => keepsSteps text count after
        | (.error _, _) => true
    else true

/-- Whether the rules that a parse of a text tries, in as many steps as the text has characters,
keep a law and come to an end. -/
def keepsParse (text : String) (world : World) : Bool :=
  match ((Kernel.ofDepth rounds (depth + 3)).sendHost id "reset" [.text text]).outcome
    world.later with
  | (.ok _, begun) => law.keepsSteps rounds depth id text text.toList.length begun
  | (.error _, _) => true

end Law

/-! ## How a parse goes -/

section Ends

variable (rounds depth : Nat) (id : HostId) (text : String)

/-- A rule that a parser has at a place of a text fails when it is called there. -/
def RuleFails (place : Nat) (fault : Fault) (after : World) : Prop :=
  ∃ (before : World) (key : Key) (entry : Entry),
    before.AtWork id text ∧ (before.host id).offset = place ∧
    (before.host id).ownRules.get? key = some entry ∧
    ((Kernel.ofDepth rounds (depth + 1)).call entry.value [.host id]).outcome before =
      (.error fault, after)

/-- Why a step fails that begins at a place of a text. -/
inductive StepFails (place : Nat) : Fault → World → Prop
  /-- A rule gave a node and consumed nothing. -/
  | idle {after : World} (name : String) (hplace : (after.host id).offset = place) :
      StepFails place (.idleRule name) after
  /-- No rule consumed anything, and the complaint is about the character at the place. -/
  | unexpected {fault : Fault} {after : World} (hchar : IsUnexpected text place fault) :
      StepFails place fault after
  /-- A rule failed, and was not cut off. -/
  | raised {fault : Fault} {after : World} (hrule : RuleFails rounds depth id text place fault after)
      (hended : fault ≠ .outOfFuel) : StepFails place fault after

/-- Completed steps of a parse, each of which takes the parser further on, though not past the end
of the text. -/
inductive Climbs : World → Nat → World → Prop
  | stay (world : World) : Climbs world 0 world
  | step {world middle reached : World} {count : Nat}
      (hleft : (world.host id).offset < text.toList.length)
      (hstep : ((Kernel.ofDepth rounds (depth + 3)).sendHost id "_step" []).outcome world =
        (.ok .null, middle))
      (hfurther : (world.host id).offset < (middle.host id).offset)
      (hwithin : (middle.host id).offset ≤ text.toList.length)
      (hrest : Climbs middle count reached) : Climbs world (count + 1) reached

/-- How a parse ends after its completed steps. -/
inductive ParseEnd (reached : World) : Except Fault Value → World → Prop
  /-- The text is used up and one node is open, and the root is returned. -/
  | returned {root : Value} {number : Nat}
      (hplace : (reached.host id).offset = text.toList.length)
      (hroot : (reached.host id).root = some root)
      (hstack : (reached.host id).stack = some (.list (.stack number)))
      (hclosed : (reached.items (.stack number)).size = 1) : ParseEnd reached (.ok root) reached
  /-- The text is used up and more than one node is open. -/
  | unclosed (label : String) {number : Nat}
      (hplace : (reached.host id).offset = text.toList.length)
      (hstack : (reached.host id).stack = some (.list (.stack number)))
      (hopen : 1 < (reached.items (.stack number)).size) :
      ParseEnd reached (.error (.unclosedNode label)) reached
  /-- There is text left, and one more step fails. -/
  | failed {fault : Fault} {after : World}
      (hplace : (reached.host id).offset < text.toList.length)
      (hstep : ((Kernel.ofDepth rounds (depth + 3)).sendHost id "_step" []).outcome reached =
        (.error fault, after))
      (hfault : StepFails rounds depth id text (reached.host id).offset fault after) :
      ParseEnd reached (.error fault) after

/-- A parse comes to an end, after steps that complete and take the parser further on. -/
structure Progress (world begun : World) (steps : Nat) (reached : World)
    (result : Except Fault Value) (after : World) : Prop where
  /-- The parse begins at the beginning of the text. -/
  reset : ((Kernel.ofDepth rounds (depth + 3)).sendHost id "reset" [.text text]).outcome
    world.later = (.ok .null, begun)
  start : (begun.host id).offset = 0
  climbs : Climbs rounds depth id text begun steps reached
  /-- There are no more steps than characters consumed, and no more of those than characters. -/
  count : steps ≤ (reached.host id).offset
  within : (reached.host id).offset ≤ text.toList.length
  outcome : ((Kernel.ofDepth rounds (depth + 4)).sendHost id "parse" [.text text]).outcome world =
    (result, after)
  ended : wasCutOff result = false
  ending : ParseEnd rounds depth id text reached result after

end Ends

/-- A parser is in order and has the rules that it was made with. -/
structure World.Ready (world : World) (id : HostId) : Prop where
  orderly : world.Orderly
  present : id < world.hosts.size
  hostClass : (world.host id).hostClass = .parser
  rules : (world.host id).rules = some (.record (.rules id))
  keyed : (world.host id).ownRules.Keyed

variable {rounds depth : Nat} {id : HostId} {text : String} {world after reached : World}

theorem Climbs.count_le {count : Nat} (hclimbs : Climbs rounds depth id text world count reached) :
    (world.host id).offset + count ≤ (reached.host id).offset := by
  induction hclimbs with
  | stay => exact Nat.le_refl _
  | step _ _ hfurther _ _ ih => omega

theorem wasCutOff_error {α : Type} {fault : Fault} :
    wasCutOff (.error fault : Except Fault α) = false ↔ fault ≠ .outOfFuel := by
  unfold wasCutOff
  split
  next heq =>
    cases heq
    exact iff_of_false (fun hfalse => Bool.false_ne_true hfalse.symm) fun hne => hne rfl
  next hother => exact iff_of_true rfl fun heq => hother (congrArg _ heq)

theorem StepFails.ended {place : Nat} {fault : Fault}
    (hfails : StepFails rounds depth id text place fault after) : fault ≠ .outOfFuel := by
  cases hfails with
  | idle => exact fun heq => by cases heq
  | unexpected hchar =>
      obtain ⟨_, _, rfl⟩ := hchar
      exact fun heq => by cases heq
  | raised _ hended => exact hended

/-- However a parse ends, it was not cut off, and the parser is not past the end of the text. -/
theorem ParseEnd.ended {result : Except Fault Value}
    (hend : ParseEnd rounds depth id text reached result after) :
    wasCutOff result = false ∧ (reached.host id).offset ≤ text.toList.length := by
  cases hend with
  | returned hplace | unclosed _ hplace => exact ⟨rfl, Nat.le_of_eq hplace⟩
  | failed hplace _ hfault => exact ⟨wasCutOff_error.mpr hfault.ended, Nat.le_of_lt hplace⟩

/-! ## Parsers at work -/

namespace World.AtWork

variable (hwork : world.AtWork id text)

include hwork

theorem stands :
    world.StandsAt id text (world.host id).offset ∧
      (world.host id).offset ≤ text.toList.length := by
  obtain ⟨place, hplace, hcursor⟩ := hwork.orderly.truthful id text hwork.input
  have hoffset : (world.host id).offset = place := by
    rw [Host.offset, hcursor]
    rfl
  rw [hoffset]
  exact ⟨⟨hwork.input, hcursor, hwork.orderly.hosts id _ (by decide)⟩, hplace⟩

theorem quiet (hquiet : world.Quiet after) :
    after.AtWork id text ∧ (after.host id).Follows (world.host id) :=
  hwork.move (.change (.quiet hquiet))

theorem later : world.later.AtWork id text := by
  have hquiet : world.Quiet world.later := .of_eq rfl rfl rfl rfl rfl
  exact (hwork.quiet hquiet).1

theorem ruleNames_has {label : Value} (hlabel : label ∈ world.ruleNames id) :
    ∃ key, label.key? = some key ∧ (world.host id).ownRules.has key = true := by
  obtain ⟨entry, hentry, rfl⟩ := List.mem_map.mp hlabel
  obtain ⟨⟨key, _⟩, hmem, rfl⟩ := List.mem_map.mp hentry
  exact ⟨key, hwork.keyed _ hmem, Table.has_of_mem hmem⟩

/-- The innermost open node is there. -/
theorem innermost :
    ∃ number top, (world.host id).stack = some (.list (.stack number)) ∧
      top < world.forest.size ∧
      (getItem (.list (.stack number)) (.int (-1))).outcome world = (.ok (.node top), world) := by
  obtain ⟨number, hstack, hsize⟩ := hwork.opened
  obtain ⟨_, hvalue, _, hnodes⟩ := hwork.orderly.opens id _ hstack
  cases hvalue
  obtain ⟨top, htop, hnode⟩ := hnodes (world.items (.stack number)).back! (by
    rw [Array.eq_push_pop_back!_of_size_ne_zero (Nat.ne_of_gt hsize)]
    simp)
  exact ⟨number, top, hstack, htop, hnode ▸ getItem_last hsize⟩

/-- A loose node finds its place below the innermost open node. -/
theorem attachLoose (node : NodeId) :
    ∃ after, (Parser.attachLoose (Kernel.ofDepth rounds (depth + 1)) id (.node node)).outcome
      world = (.ok (), after) := by
  rw [Parser.attachLoose, outcome_bind_ok (parent_outcome world node)]
  split
  next =>
    obtain ⟨number, top, hstack, htop, hlast⟩ := hwork.later.innermost
    have hprev : ((Kernel.ofDepth rounds (depth + 1)).sendHost id "prev" []).outcome world =
        (.ok (.node top), world.later) :=
      (sendHost_free_outcome .prev hwork.hostClass (hwork.orderly.hosts id _ (by decide)) rfl).trans
        ((outcome_bind_ok (hostPart_look "stack" hstack world.later.serial)).trans hlast)
    have hadd : ((Kernel.ofDepth rounds (depth + 1)).send (.node top) "add_node"
        [.node node]).outcome world.later =
          (.ok (.node node), world.later.later.attach node top) := by
      have hsend : (Kernel.ofDepth rounds (depth + 1)).send (.node top) "add_node" [.node node] =
          Law.resolve (.method (.node top) "add_node") >>= fun callable =>
            callValue (Kernel.ofDepth rounds depth) callable (.of [.node node]) := rfl
      rw [hsend, outcome_bind_ok (resolve_addNode (hwork.later.orderly.nodes top _ (by decide)))]
      exact callNode_addNode _ node (hwork.later.orderly.shaped.children top htop)
    rw [outcome_bind_ok hprev, outcome_bind_ok hadd]
    exact ⟨_, rfl⟩
  next => exact ⟨_, rfl⟩

/-- What is not cut off under the law goes as it goes anyway, and leaves the parser at work and no
further back. -/
theorem tracked {α : Type} {free watched : Run α} {result : Except Fault α} {before : Host}
    (hfollows : (world.host id).Follows before)
    (htracks : Tracks (fun after => after.AtWork id text ∧ (after.host id).Follows before) free
      watched)
    (hwatched : watched.outcome world = (result, after)) (hended : wasCutOff result = false) :
    free.outcome world = (result, after) ∧ after.AtWork id text ∧
      (after.host id).Follows before :=
  (htracks world).ended ⟨hwork, hfollows⟩ hwatched hended

end World.AtWork

/-! ## Rules -/

/-- When a rule that a parser has is applied and the law is kept, then only the rule can fail. -/
theorem apply_raises {label : Value} {fault : Fault} (hwork : world.AtWork id text)
    (hlabel : ∃ key, label.key? = some key ∧ (world.host id).ownRules.has key = true)
    (happly : (((onward id).kernel .null rounds (depth + 2)).sendHost id "apply" [label]).outcome
      world = (.error fault, after)) (hended : fault ≠ .outOfFuel) :
    RuleFails rounds depth id text (world.host id).offset fault after := by
  obtain ⟨key, hkey, hhas⟩ := hlabel
  obtain ⟨entry, hentry⟩ := Option.isSome_iff_exists.mp hhas
  have hlater := hwork.later.later
  -- the calls that the method makes are those of the method under the law, one by one
  have hover := @Law.oversees_free _ _ (onward_upholds id text (world.host id))
    (.method world.serial (.host id) "apply") rounds (depth + 1)
  generalize hkernel : (onward id).kernel (.method world.serial (.host id) "apply") rounds
    (depth + 1) = kernel at hover
  have hbody : (Parser.apply kernel id label).outcome world.later = (.error fault, after) := by
    rw [← hkernel]
    exact (Law.sendHost_outcome .apply hwork.hostClass (hwork.orderly.hosts id _ (by decide)) rfl
      rfl).symm.trans happly
  have hget : (kernel.sendHost id "get" [label]).outcome world.later =
      (.ok entry.value, world.later.later) := by
    rw [← hkernel]
    exact (Law.sendHost_outcome .get hwork.later.hostClass
      (hwork.later.orderly.hosts id _ (by decide)) rfl rfl).trans
        (getRule_outcome hlater.rules hkey hentry)
  rw [Parser.apply, outcome_bind_ok hget, outcome_bind] at hbody
  rcases hcall : (kernel.call entry.value [.host id]).outcome world.later.later with
    ⟨_ | value, middle⟩
  · rw [hcall] at hbody
    cases hbody
    exact ⟨world.later.later, key, entry, hlater, rfl, hentry,
      (hlater.tracked (.refl _) (hover.call _ _) hcall (wasCutOff_error.mpr hended)).1⟩
  · rw [hcall] at hbody
    obtain ⟨_, hmiddle, hfollows⟩ := hlater.tracked (.refl _) (hover.call _ _) hcall rfl
    dsimp only at hbody
    split at hbody
    next node _ =>
      rw [outcome_bind] at hbody
      rcases hattach : (Parser.attachLoose kernel id (.node node)).outcome middle with ⟨_ | _, last⟩
      · rw [hattach] at hbody
        cases hbody
        obtain ⟨_, hattached⟩ := hmiddle.attachLoose node
        have hfree := (hmiddle.tracked hfollows (hover.attachLoose id _) hattach
          (wasCutOff_error.mpr hended)).1
        cases hfree.symm.trans hattached
      · rw [hattach] at hbody
        cases hbody
    next => cases hbody

/-! ## Steps -/

/-- How it ends to try rules at a place of a text. -/
inductive TriesEnd (rounds depth : Nat) (id : HostId) (text : String) (place : Nat) :
    Except Fault Bool → World → Prop
  | moved {after : World} (hwork : after.AtWork id text)
      (hfurther : place < (after.host id).offset) :
      TriesEnd rounds depth id text place (.ok true) after
  | stuck {after : World} (hwork : after.AtWork id text) (hplace : (after.host id).offset = place) :
      TriesEnd rounds depth id text place (.ok false) after
  | failed {fault : Fault} {after : World}
      (hfault : StepFails rounds depth id text place fault after) :
      TriesEnd rounds depth id text place (.error fault) after

/-- Rules that keep the law are tried until one takes the parser further on or something fails. -/
theorem tryRules_ends_onward {labels : List Value} (hwork : world.AtWork id text)
    (hlabels : ∀ label ∈ labels,
      ∃ key, label.key? = some key ∧ (world.host id).ownRules.has key = true)
    (hkeeps : (onward id).keepsTries rounds depth id labels world = true) :
    ∃ result after,
      (Parser.tryRules (Kernel.ofDepth rounds (depth + 2)) id labels).outcome world =
        (result, after) ∧ TriesEnd rounds depth id text (world.host id).offset result after := by
  -- no rule leads back, so a rule that does not take the parser on leaves it where it was
  induction labels generalizing world with
  | nil => exact ⟨_, _, rfl, .stuck hwork rfl⟩
  | cons label rest ih =>
      rw [Parser.tryRules, outcome_bind_ok (cursor_at hwork.stands.1 "_i")]
      rcases hwatched : (((onward id).kernel .null rounds (depth + 2)).sendHost id "apply"
        [label]).outcome world with ⟨result, after⟩
      have hended := Law.keepsTries_ended hkeeps hwatched
      obtain ⟨hfree, hafter, hfollows⟩ := hwork.tracked (.refl _)
        ((Law.oversees_free (onward_upholds id text (world.host id)) .null rounds
          (depth + 2)).sendHost id (fun _ => rfl) [label]) hwatched hended
      dsimp only
      rw [outcome_bind, hfree]
      cases result with
      | error fault =>
          have hfault := wasCutOff_error.mp hended
          exact ⟨_, _, rfl, .failed (.raised (apply_raises hwork
            (hlabels label List.mem_cons_self) hwatched hfault) hfault)⟩
      | ok value =>
          dsimp only
          rw [outcome_bind_ok (cursor_at hafter.stands.1 "_i")]
          split
          next hfurther => exact ⟨_, _, rfl, .moved hafter hfurther⟩
          next hidle =>
            have hback : ¬(world.host id).offset < (after.host id).offset := hidle
            have hplace : (after.host id).offset = (world.host id).offset :=
              Nat.le_antisymm (Nat.le_of_not_lt hback) hfollows.offset
            split
            next =>
              rw [← hplace]
              refine ih hafter (fun label hlabel => ?_) (Law.keepsTries_rest hkeeps hwatched hback)
              obtain ⟨key, hkey, hhas⟩ := hlabels label (List.mem_cons_of_mem _ hlabel)
              exact ⟨key, hkey, hfollows.rules key hhas⟩
            next => exact ⟨_, _, rfl, .failed (.idle _ hplace)⟩

/-- Where no rule takes a parser on there is a character to complain about. -/
theorem complain_unexpected (rounds depth : Nat) (hwork : world.AtWork id text)
    (hleft : (world.host id).offset < text.toList.length) :
    ∃ fault after, (Parser.complain (Kernel.ofDepth rounds (depth + 1)) id).outcome world =
      (.error fault, after) ∧ IsUnexpected text (world.host id).offset fault := by
  have hstands : world.later.later.StandsAt id text (world.host id).offset :=
    hwork.later.later.stands.1
  have hchar := List.getElem?_eq_getElem hleft
  have hlocation : (Parser.askLocation (Kernel.ofDepth rounds (depth + 1)) id).outcome world =
      (.ok (.ofCursor world.later.serial (.ofPlace text.toList (world.host id).offset)),
        world.later.later) := by
    refine (sendHost_free_outcome .location hwork.hostClass
      (hwork.orderly.hosts id _ (by decide)) rfl).trans ?_
    exact outcome_bind_ok (cursor_at hwork.later.stands.1 "_line")
  have hitem : (Parser.itemReached (.text text) (world.host id).offset).outcome world.later.later =
      (.ok (.ofChars [text.toList[(world.host id).offset]]), world.later.later) := by
    rw [Parser.itemReached, hchar]
    rfl
  have hspelling : (spell (.ofChars [text.toList[(world.host id).offset]])).outcome
      world.later.later =
        (.ok (Text.quoted (String.ofList [text.toList[(world.host id).offset]])),
          world.later.later) := rfl
  refine ⟨_, world.later.later, ?_, _, hchar, rfl⟩
  rw [Parser.complain, outcome_bind_ok hlocation, outcome_bind_ok (hostPart_input hstands),
    outcome_bind_ok (cursor_at hstands "_i")]
  refine (outcome_bind_ok hitem).trans ?_
  rw [outcome_bind_ok hspelling, outcome_bind_ok (pointer_at hstands _), outcome_fail]

/-- A step that begins before the end of the text takes the parser further on or fails. -/
theorem step_advances (hwork : world.AtWork id text)
    (hleft : (world.host id).offset < text.toList.length)
    (hkeeps : (onward id).keepsTries rounds depth id (world.ruleNames id) world.later = true) :
    (∃ after, ((Kernel.ofDepth rounds (depth + 3)).sendHost id "_step" []).outcome world =
        (.ok .null, after) ∧ after.AtWork id text ∧
          (world.host id).offset < (after.host id).offset) ∨
      ∃ fault after, ((Kernel.ofDepth rounds (depth + 3)).sendHost id "_step" []).outcome world =
        (.error fault, after) ∧
          StepFails rounds depth id text (world.host id).offset fault after := by
  have hnames : (valuesIn (.record (.rules id))).outcome world.later =
      (.ok (world.ruleNames id), world.later) := rfl
  have hrules : (hostPart id "rules").outcome world.later =
      (.ok (.record (.rules id)), world.later) :=
    hostPart_look "rules" hwork.rules world.later.serial
  obtain ⟨result, after, htries, hend⟩ :=
    tryRules_ends_onward hwork.later (fun _ hlabel => hwork.ruleNames_has hlabel) hkeeps
  have hbody : (Parser.step (Kernel.ofDepth rounds (depth + 2)) id).outcome world.later =
      (Parser.tryRules (Kernel.ofDepth rounds (depth + 2)) id (world.ruleNames id) >>= fun moved =>
        if moved then pure () else Parser.complain (Kernel.ofDepth rounds (depth + 2)) id).outcome
          world.later := (outcome_bind_ok hrules).trans (outcome_bind_ok hnames)
  have hstep : ((Kernel.ofDepth rounds (depth + 3)).sendHost id "_step" []).outcome world =
      (Parser.step (Kernel.ofDepth rounds (depth + 2)) id >>= fun _ => pure .null).outcome
        world.later :=
    sendHost_free_outcome .step hwork.hostClass (hwork.orderly.hosts id _ (by decide)) rfl
  rw [outcome_bind, hbody, outcome_bind, htries] at hstep
  cases hend with
  | moved hafter hfurther => exact .inl ⟨after, hstep, hafter, hfurther⟩
  | stuck hafter hplace =>
      obtain ⟨fault, last, hcomplain, hchar⟩ :=
        complain_unexpected rounds (depth + 1) hafter (hplace ▸ hleft)
      dsimp only at hstep
      rw [if_neg Bool.false_ne_true, hcomplain] at hstep
      exact .inr ⟨fault, last, hstep, .unexpected (hplace ▸ hchar)⟩
  | failed hfault => exact .inr ⟨_, after, hstep, hfault⟩

/-! ## The loop -/

/-- How the loop of a parse ends after its completed steps. -/
inductive LoopEnd (rounds depth : Nat) (id : HostId) (text : String) (reached : World) :
    Except Fault Unit → World → Prop
  | done (hwork : reached.AtWork id text)
      (hplace : (reached.host id).offset = text.toList.length) :
      LoopEnd rounds depth id text reached (.ok ()) reached
  | failed {fault : Fault} {after : World}
      (hplace : (reached.host id).offset < text.toList.length)
      (hstep : ((Kernel.ofDepth rounds (depth + 3)).sendHost id "_step" []).outcome reached =
        (.error fault, after))
      (hfault : StepFails rounds depth id text (reached.host id).offset fault after) :
      LoopEnd rounds depth id text reached (.error fault) after

/-- With a round for every character that is left and one more, the loop comes to an end. -/
theorem stepAll_climbs {fuel count : Nat} (hwork : world.AtWork id text)
    (hfuel : text.toList.length - (world.host id).offset < fuel)
    (hcount : text.toList.length - (world.host id).offset ≤ count)
    (hkeeps : (onward id).keepsSteps rounds depth id text count world = true) :
    ∃ steps reached result after, Climbs rounds depth id text world steps reached ∧
      (Parser.stepAll (Kernel.ofDepth rounds (depth + 3)) id fuel).outcome world =
        (result, after) ∧ LoopEnd rounds depth id text reached result after := by
  -- each step leaves fewer characters, and as many rounds less are needed
  induction fuel generalizing world count with
  | zero => exact absurd hfuel (Nat.not_lt_zero _)
  | succ fuel ih =>
      obtain ⟨hstands, hplace⟩ := hwork.stands
      have hlength : (lengthOf (.text text)).outcome world = (.ok text.toList.length, world) := by
        rw [lengthOf, String.length_toList, outcome_pure]
      rw [Parser.stepAll, outcome_bind_ok (cursor_at hstands "_i"),
        outcome_bind_ok (hostPart_input hstands), outcome_bind_ok hlength]
      split
      next hleft =>
        have hleft : (world.host id).offset < text.toList.length := hleft
        obtain ⟨count, rfl⟩ : ∃ less, count = less + 1 := ⟨count - 1, by omega⟩
        rw [Law.keepsSteps, if_pos hleft, Bool.and_eq_true] at hkeeps
        rcases step_advances hwork hleft hkeeps.1 with
          ⟨middle, hstep, hmiddle, hfurther⟩ | ⟨fault, after, hstep, hfault⟩
        · have hwithin := hmiddle.stands.2
          have hrest := hkeeps.2
          rw [hstep] at hrest
          obtain ⟨steps, reached, result, after, hclimbs, hloop, hend⟩ :=
            ih hmiddle (by omega) (by omega) hrest
          refine ⟨steps + 1, reached, result, after, ?_, ?_, hend⟩
          · exact .step hleft hstep hfurther hwithin hclimbs
          · rw [outcome_bind_ok hstep, hloop]
        · refine ⟨0, world, .error fault, after, .stay world, ?_, .failed hleft hstep hfault⟩
          rw [outcome_bind, hstep]
      next hdone =>
        have hdone : ¬(world.host id).offset < text.toList.length := hdone
        exact ⟨0, world, .ok (), world, .stay world, rfl, .done hwork (by omega)⟩

/-! ## The whole parse -/

theorem World.Ready.later (hready : world.Ready id) : world.later.Ready id where
  orderly := by
    have hquiet : world.Quiet world.later := .of_eq rfl rfl rfl rfl rfl
    exact orderly_preserved (.refl _) _ _ (.change (.quiet hquiet)) hready.orderly
  present := hready.present
  hostClass := hready.hostClass
  rules := hready.rules
  keyed := hready.keyed

theorem World.Ready.restart (hready : world.Ready id) (text : String) :
    (world.restart id (.text text)).AtWork id text ∧
      ((world.restart id (.text text)).host id).offset = 0 := by
  have hhost := World.host_restart (.text text) hready.present
  have hitems := World.items_restart world id (.text text) world.openStacks.size
  rw [if_pos rfl] at hitems
  constructor
  · exact
      { orderly := orderly_preserved (.refl _) _ _
          (.restart id _ (.inr ⟨0, .of [], rfl⟩)) hready.orderly
        hostClass := by rw [hhost]; exact hready.hostClass
        input := by rw [hhost]
        root := ⟨_, by rw [hhost]⟩
        rules := by rw [hhost]; exact hready.rules
        keyed := by rw [hhost]; exact hready.keyed
        opened := ⟨world.openStacks.size, by rw [hhost], by rw [hitems]; exact Nat.one_pos⟩ }
  · rw [hhost]
    rfl

/-- At the end of the text a parse returns the root, unless another node is open. -/
theorem finish_ends (hwork : reached.AtWork id text)
    (hplace : (reached.host id).offset = text.toList.length) :
    ∃ result, (hostPart id "stack" >>= fun stack => lengthOf stack >>= fun size =>
        if 1 < size then Parser.unclosed stack else hostPart id "ast").outcome reached =
      (result, reached) ∧ ParseEnd rounds depth id text reached result reached := by
  obtain ⟨root, hroot⟩ := hwork.root
  obtain ⟨number, hstack, hopened⟩ := hwork.opened
  have hpart : (hostPart id "stack").outcome reached = (.ok (.list (.stack number)), reached) :=
    hostPart_look "stack" hstack reached.serial
  have hsize : (lengthOf (.list (.stack number))).outcome reached =
      (.ok (reached.items (.stack number)).size, reached) := rfl
  rw [outcome_bind_ok hpart, outcome_bind_ok hsize]
  split
  next hmany =>
    obtain ⟨other, top, hother, _, hlast⟩ := hwork.innermost
    cases hstack.symm.trans hother
    have hlabel : (attributeOf (.node top) "type").outcome reached =
        (.ok (reached.cell top).label, reached) := rfl
    have htext : (plainText (reached.cell top).label).outcome reached =
        (.ok (reached.plainText (reached.cell top).label), reached) := rfl
    refine ⟨.error (.unclosedNode (reached.plainText (reached.cell top).label)), ?_,
      .unclosed _ hplace hstack hmany⟩
    rw [Parser.unclosed, outcome_bind_ok hlast, outcome_bind_ok hlabel, outcome_bind_ok htext,
      outcome_fail]
  next hone =>
    exact ⟨_, hostPart_look "ast" hroot reached.serial,
      .returned hplace hroot hstack (by omega)⟩

/-- Where the rules that are tried keep to the law of reading on and come to an end, a parse comes
to an end after at most as many steps as the text has characters. Each step that completes takes the
parser further on and not past the end. The parse returns at the end of the text only; if it fails,
then it is with a complaint of its own, at a place of the text, or with what a rule failed with. -/
theorem parse_progresses (hready : world.Ready id) (hrounds : text.toList.length < rounds)
    (hkeeps : (onward id).keepsParse rounds depth id text world = true) :
    ∃ begun steps reached result after,
      Progress rounds depth id text world begun steps reached result after := by
  have hlater := hready.later
  have hparse : ((Kernel.ofDepth rounds (depth + 4)).sendHost id "parse" [.text text]).outcome
      world = (Parser.parse (Kernel.ofDepth rounds (depth + 3)) id (.text text)).outcome
        world.later :=
    sendHost_free_outcome .parse hready.hostClass (hready.orderly.hosts id _ (by decide)) rfl
  have hreset : ((Kernel.ofDepth rounds (depth + 3)).sendHost id "reset" [.text text]).outcome
      world.later = (.ok .null, world.later.later.restart id (.text text)) :=
    sendHost_free_outcome .reset hlater.hostClass (hlater.orderly.hosts id _ (by decide)) rfl
  obtain ⟨hwork, hstart⟩ := hlater.later.restart text
  generalize world.later.later.restart id (.text text) = begun at hreset hwork hstart
  rw [Law.keepsParse, hreset] at hkeeps
  obtain ⟨steps, reached, loop, looped, hclimbs, hloop, hend⟩ :=
    stepAll_climbs hwork (by omega : _ < rounds) (by omega) hkeeps
  obtain ⟨result, after, houtcome, hended⟩ : ∃ result after,
      (Parser.parse (Kernel.ofDepth rounds (depth + 3)) id (.text text)).outcome world.later =
        (result, after) ∧ ParseEnd rounds depth id text reached result after := by
    rw [Parser.parse, outcome_bind_ok hreset, outcome_bind]
    rw [show (Kernel.ofDepth rounds (depth + 3)).fuel = rounds from rfl, hloop]
    cases hend with
    | done hwork hplace =>
        obtain ⟨result, hfinish, hended⟩ := finish_ends hwork hplace
        exact ⟨result, _, hfinish, hended⟩
    | failed hplace hstep hfault => exact ⟨_, _, rfl, .failed hplace hstep hfault⟩
  obtain ⟨hcut, hplace⟩ := hended.ended
  have hcount := hclimbs.count_le
  exact ⟨begun, steps, reached, result, after,
    { reset := hreset
      start := hstart
      climbs := hclimbs
      count := by omega
      within := hplace
      outcome := hparse.trans houtcome
      ended := hcut
      ending := hended }⟩

/-- A rule for openings brings in the rule for closings, and the rule for letters, which gives no
node, is tried by way of another. -/
def growingScript : List Stmt :=
  [.act (.call "Parser" [] []) (some "parser"),
    .act (.send "parser" "set"
      [.datum (.text "open"),
        .callback "open"
          (.act (.send "self" "set"
            [.datum (.text "close"),
              .callback "close" (closeScript (.datum (.text "[)]")) "list")] []) none ::
            openScript (.datum (.text "[(]")) "list")] []) none,
    .act (.send "parser" "set"
      [.datum (.text "item"),
        .callback "item"
          [.act (.send "self" "apply" [.datum (.text "letter")] []) none]] []) none,
    .act (.send "parser" "set"
      [.datum (.text "letter"),
        .callback "letter"
          [.act (.send "self" "match" [.datum (.text "[a-z]")] []) none]] []) none]

/-- The world in which those rules are registered. -/
def growingWorld : World := ((Script.runAll (Kernel.ofDepth 10 10) growingScript).outcome .start).2

theorem growingWorld_ready : growingWorld.Ready 0 where
  orderly := by
    have hkeeps : orderly.Keeps 10 10 growingScript := by decide +kernel
    exact (hkeeps.throughout orderly_upholds orderly_start fun _ horderly => horderly).1
  present := by decide +kernel
  hostClass := by decide +kernel
  rules := by rfl
  keyed := by
    have hkeyed : ∀ entry ∈ (growingWorld.host 0).ownRules.entries,
      entry.2.name.key? = some entry.1 := by decide +kernel
    exact hkeyed

theorem parse_progresses_growing :
    growingWorld.Ready 0 ∧ (onward 0).keepsParse 10 10 0 "(a)" growingWorld = true ∧
      ∃ begun steps reached result after,
        Progress 10 10 0 "(a)" growingWorld begun steps reached result after :=
  ⟨growingWorld_ready, by decide +kernel,
    parse_progresses growingWorld_ready (by decide) (by decide +kernel)⟩

end Rulebook
