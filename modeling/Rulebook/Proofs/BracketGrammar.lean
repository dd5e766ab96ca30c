import Mathlib.Data.List.Nodup
import Rulebook.Proofs.BracketRule
import Rulebook.Proofs.Nesting
import Rulebook.Proofs.Tokenizer

/-!
# Grammars of brackets

A grammar has some kinds of brackets, each with a rule that opens it and a rule that closes it, and
captured patterns for single characters that are no brackets. Its rules may be registered in any
order: no two of them are for the same bracket, so what a step does depends on the next character
alone.
-/

namespace Rulebook

/-- What a rule is for: a bracket, or a class of single characters. -/
inductive Role
  | opens (bracket : Bracket) (name : String) (matcher : Term)
  | closes (bracket : Bracket) (name : String) (matcher : Term)
  | leaf (accepts : Char → Bool) (matcher : Matcher) (flags : String)

namespace Role

/-- How a rule is registered under a label. -/
def registration (label : String) : Role → Registration
  | .opens bracket name matcher => .set label name (openScript matcher bracket.kind)
  | .closes bracket name matcher => .set label name (closeScript matcher bracket.kind)
  | .leaf _ matcher flags => .capture ⟨label, matcher, flags⟩

/-- The characters that a rule is for. -/
def accepts : Role → Char → Bool
  | .opens bracket _ _ => (· == bracket.opening)
  | .closes bracket _ _ => (· == bracket.closing)
  | .leaf accepts _ _ => accepts

/-- The bracket that a rule is for. -/
def bracket? : Role → Option Bracket
  | .opens bracket _ _ | .closes bracket _ _ => some bracket
  | .leaf _ _ _ => none

/-- The matcher of a rule takes the characters that the rule is for, one at a time. -/
def Sound (label : String) : Role → Prop
  | .opens bracket _ matcher =>
    ∃ pattern, matcher.Names pattern ∧ pattern.TakesOne (· == bracket.opening)
  | .closes bracket _ matcher =>
    ∃ pattern, matcher.Names pattern ∧ pattern.TakesOne (· == bracket.closing)
  | .leaf accepts matcher flags =>
    ∃ pattern, Capture.pattern? ⟨label, matcher, flags⟩ = some pattern ∧ pattern.TakesOne accepts

/-- The rule that is registered. -/
def rule (label : String) : Role → Rule
  | .opens bracket _ matcher => .script (openScript matcher bracket.kind)
  | .closes bracket _ matcher => .script (closeScript matcher bracket.kind)
  | .leaf _ matcher flags => .captured ((Capture.pattern? ⟨label, matcher, flags⟩).getD default)

end Role

/-- A family of brackets with the rules for them, and rules for other characters. -/
structure Grammar where
  brackets : List Bracket
  /-- The rules under their labels, in the order of registration. -/
  rules : List (String × Role)
  labels : (rules.map Prod.fst).Nodup
  kinds : (brackets.map Bracket.kind).Nodup
  chars : (brackets.map Bracket.opening ++ brackets.map Bracket.closing).Nodup
  known : ∀ rule ∈ rules, ∀ bracket ∈ rule.2.bracket?, bracket ∈ brackets
  opened : ∀ bracket ∈ brackets, ∃ label name matcher,
    (label, .opens bracket name matcher) ∈ rules
  closed : ∀ bracket ∈ brackets, ∃ label name matcher,
    (label, .closes bracket name matcher) ∈ rules
  apart : ∀ label accepts matcher flags, (label, .leaf accepts matcher flags) ∈ rules →
    ∀ char, accepts char = true → Unbracketed brackets char
  sound : ∀ rule ∈ rules, rule.2.Sound rule.1

/-- What a character means to a grammar. -/
inductive Mark
  | opening (bracket : Bracket)
  | closing (bracket : Bracket)
  | leaf (label : String)

/-- What the characters mean that a rule is for. -/
def Role.mark (label : String) : Role → Mark
  | .opens bracket _ _ => .opening bracket
  | .closes bracket _ _ => .closing bracket
  | .leaf _ _ _ => .leaf label

namespace Grammar

/-- The registrations of a grammar. -/
def registrations (grammar : Grammar) : List Registration :=
  grammar.rules.map fun rule => rule.2.registration rule.1

/-- The table that they make. -/
def table (grammar : Grammar) : Table String Rule :=
  ⟨grammar.rules.map fun rule => (rule.1, rule.2.rule rule.1)⟩

/-- What a character means, by the first rule that is for it. -/
def mark? (grammar : Grammar) (char : Char) : Option Mark :=
  (grammar.rules.find? fun rule => rule.2.accepts char).map fun rule => rule.2.mark rule.1

/-- A character is a bracket or one that is captured. -/
def Reads (grammar : Grammar) (char : Char) : Prop :=
  ∃ rule ∈ grammar.rules, rule.2.accepts char = true

end Grammar

/-- What a character comes to that means something. -/
def Mark.effect (reading : Reading) (level : Level) (outer : List Level) (char : Char) :
    Mark → Effect
  | .opening bracket =>
    .moved ⟨reading.past [char], .opened reading bracket.kind char :: level :: outer⟩
  | .closing bracket => Rulebook.closing bracket.kind (reading.past [char]) (level :: outer)
  | .leaf label =>
    .moved ⟨reading.past [char], level.add (.leaf (reading.heading label [char])) :: outer⟩

/-- What a character comes to. -/
def markEffect (reading : Reading) (level : Level) (outer : List Level) (char : Char) :
    Option Mark → Effect
  | some mark => mark.effect reading level outer char
  | none => .idle

/-! ## The table of a grammar -/

section Registered

variable {α : Type} {key : String} {entry : α} {entries done : List (String × α)}

theorem insertEntry_fresh (hfresh : key ∉ entries.map Prod.fst) :
    Table.insertEntry key entry entries = entries ++ [(key, entry)] := by
  induction entries with
  | nil => rfl
  | cons head rest ih =>
      rw [List.map_cons, List.mem_cons, not_or] at hfresh
      rw [Table.insertEntry, if_neg (Ne.symm hfresh.1), ih hfresh.2, List.cons_append]

/-- Registering under distinct labels makes the table of all entries in order. -/
theorem registered_distinct {registrations : List Registration}
    {entries : List (String × Rule)}
    (hadds : List.Forall₂ (fun registration entry => ∀ table : Table String Rule,
      registration.enter table = table.insert entry.1 entry.2) registrations entries)
    (hnodup : (entries.map Prod.fst).Nodup) : registered registrations = ⟨entries⟩ := by
  -- a label that is not there yet adds its entry at the end
  have hfold : ∀ done : List (String × Rule), ((done ++ entries).map Prod.fst).Nodup →
      registrations.foldl Registration.enter ⟨done⟩ = ⟨done ++ entries⟩ := by
    clear hnodup
    induction hadds with
    | nil =>
        intro done _
        rw [List.append_nil]
        rfl
    | @cons registration entry registrations entries hadd _ ih =>
        intro done hnodup
        have hfresh : entry.1 ∉ done.map Prod.fst := by
          rw [List.map_append, List.map_cons, List.nodup_middle, List.nodup_cons] at hnodup
          exact fun hmem => hnodup.1 (List.mem_append_left _ hmem)
        have happend : done ++ entry :: entries = done ++ [entry] ++ entries := by simp
        rw [happend] at hnodup ⊢
        rw [List.foldl_cons, hadd, Table.insert, insertEntry_fresh hfresh]
        exact ih _ hnodup
  exact hfold [] hnodup

end Registered

namespace Grammar

variable (grammar : Grammar)

theorem keys_table : grammar.table.keys = grammar.rules.map Prod.fst := by
  rw [Table.keys, table, List.map_map]
  rfl

theorem get?_table {rule : String × Role} (hrule : rule ∈ grammar.rules) :
    grammar.table.get? rule.1 = some (rule.2.rule rule.1) := by
  refine Table.get?_of_mem ?_ (List.mem_map_of_mem hrule)
  rw [keys_table]
  exact grammar.labels

theorem registered_registrations : registered grammar.registrations = grammar.table := by
  refine registered_distinct ?_ ?_
  · rw [registrations, List.forall₂_map_left_iff, List.forall₂_map_right_iff, List.forall₂_same]
    rintro ⟨label, role⟩ hrule table
    cases role with
    | opens bracket name matcher => rfl
    | closes bracket name matcher => rfl
    | leaf accepts matcher flags =>
        obtain ⟨pattern, hpattern, _⟩ := grammar.sound _ hrule
        simp only [Role.registration, Registration.enter, Role.rule, hpattern, Option.getD_some]
  · rw [List.map_map]
    exact grammar.labels

end Grammar

/-! ## What characters mean -/

namespace Grammar

variable {grammar : Grammar} {bracket other : Bracket} {char : Char}

theorem eq_of_opening (hbracket : bracket ∈ grammar.brackets) (hother : other ∈ grammar.brackets)
    (heq : bracket.opening = other.opening) : bracket = other :=
  List.inj_on_of_nodup_map (List.nodup_append.mp grammar.chars).1 hbracket hother heq

theorem eq_of_closing (hbracket : bracket ∈ grammar.brackets) (hother : other ∈ grammar.brackets)
    (heq : bracket.closing = other.closing) : bracket = other :=
  List.inj_on_of_nodup_map (List.nodup_append.mp grammar.chars).2.1 hbracket hother heq

theorem eq_of_kind (hbracket : bracket ∈ grammar.brackets) (hother : other ∈ grammar.brackets)
    (heq : bracket.kind = other.kind) : bracket = other :=
  List.inj_on_of_nodup_map grammar.kinds hbracket hother heq

theorem opening_ne_closing (hbracket : bracket ∈ grammar.brackets)
    (hother : other ∈ grammar.brackets) : bracket.opening ≠ other.closing :=
  (List.nodup_append.mp grammar.chars).2.2 _ (List.mem_map_of_mem hbracket) _
    (List.mem_map_of_mem hother)

/-- A character means what the first rule says that is for it. -/
theorem mark?_of_reads (hreads : grammar.Reads char) :
    ∃ rule ∈ grammar.rules, rule.2.accepts char = true ∧
      grammar.mark? char = some (rule.2.mark rule.1) := by
  obtain ⟨rule, hrule, haccepts⟩ := hreads
  cases hfound : grammar.rules.find? fun rule => rule.2.accepts char with
  | none => exact absurd haccepts (List.find?_eq_none.mp hfound rule hrule)
  | some first =>
      have hfirst := List.find?_some hfound
      refine ⟨first, List.mem_of_find?_eq_some hfound, hfirst, ?_⟩
      rw [mark?, hfound]
      rfl

theorem mark?_opening (hbracket : bracket ∈ grammar.brackets) :
    grammar.mark? bracket.opening = some (.opening bracket) := by
  obtain ⟨label, name, matcher, hopens⟩ := grammar.opened bracket hbracket
  obtain ⟨⟨found, role⟩, hrule, haccepts, hmark⟩ :=
    mark?_of_reads ⟨_, hopens, beq_self_eq_true bracket.opening⟩
  rw [hmark]
  cases role with
  | opens other _ _ =>
      have hother := grammar.known _ hrule other rfl
      rw [eq_of_opening hbracket hother (beq_iff_eq.mp haccepts)]
      rfl
  | closes other _ _ =>
      have hother := grammar.known _ hrule other rfl
      exact absurd (beq_iff_eq.mp haccepts) (opening_ne_closing hbracket hother)
  | leaf accepts _ _ => exact absurd rfl (grammar.apart _ _ _ _ hrule _ haccepts _ hbracket).1

theorem mark?_closing (hbracket : bracket ∈ grammar.brackets) :
    grammar.mark? bracket.closing = some (.closing bracket) := by
  obtain ⟨label, name, matcher, hcloses⟩ := grammar.closed bracket hbracket
  obtain ⟨⟨found, role⟩, hrule, haccepts, hmark⟩ :=
    mark?_of_reads ⟨_, hcloses, beq_self_eq_true bracket.closing⟩
  rw [hmark]
  cases role with
  | opens other _ _ =>
      have hother := grammar.known _ hrule other rfl
      exact absurd (beq_iff_eq.mp haccepts).symm (opening_ne_closing hother hbracket)
  | closes other _ _ =>
      have hother := grammar.known _ hrule other rfl
      rw [eq_of_closing hbracket hother (beq_iff_eq.mp haccepts)]
      rfl
  | leaf accepts _ _ => exact absurd rfl (grammar.apart _ _ _ _ hrule _ haccepts _ hbracket).2

theorem mark?_leaf (hreads : grammar.Reads char) (hchar : Unbracketed grammar.brackets char) :
    ∃ label accepts matcher flags, (label, .leaf accepts matcher flags) ∈ grammar.rules ∧
      accepts char = true ∧ grammar.mark? char = some (.leaf label) := by
  obtain ⟨⟨label, role⟩, hrule, haccepts, hmark⟩ := mark?_of_reads hreads
  cases role with
  | opens other _ _ =>
      have hother := grammar.known _ hrule other rfl
      exact absurd (beq_iff_eq.mp haccepts) (hchar other hother).1
  | closes other _ _ =>
      have hother := grammar.known _ hrule other rfl
      exact absurd (beq_iff_eq.mp haccepts) (hchar other hother).2
  | leaf accepts matcher flags => exact ⟨label, accepts, matcher, flags, hrule, haccepts, hmark⟩

end Grammar

/-! ## Trying the rules -/

section Step

variable {rounds depth : Nat} {id : HostId} {table : Table String Rule} {reading : Reading}
  {level : Level} {outer : List Level} {char : Char}

theorem Mark.effect_ne_idle (mark : Mark) : mark.effect reading level outer char ≠ .idle := by
  intro hidle
  cases mark with
  | opening bracket => cases hidle
  | leaf label => cases hidle
  | closing bracket =>
      rw [effect] at hidle
      rcases outer with _ | ⟨next, outer⟩
      · cases hidle
      · rw [Rulebook.closing] at hidle
        split at hidle <;> cases hidle

theorem Tries.of_acts {kernel : Kernel} {stage : Stage} {label : String} {effect : Effect}
    (hacts : Acts kernel id table label stage effect) (heffect : effect ≠ .idle)
    (rest : List String) : Tries kernel id table stage (label :: rest) effect := by
  cases effect with
  | idle => exact absurd rfl heffect
  | moved next => exact .moved hacts
  | failed fault => exact .failed hacts

theorem Pattern.TakesOne.token?_skip {pattern : Pattern} {accepts : Char → Bool}
    (htakes : pattern.TakesOne accepts) (label : String) (rest : List Char)
    (haccepts : accepts char = false) : pattern.token? label (char :: rest) = none := by
  rw [Pattern.token?, htakes.skips char rest haccepts]

theorem Pattern.TakesOne.token?_take {pattern : Pattern} {accepts : Char → Bool}
    (htakes : pattern.TakesOne accepts) (label : String) (rest : List Char)
    (haccepts : accepts char = true) :
    pattern.token? label (char :: rest) = some ⟨label, [char], List.cons_ne_nil char []⟩ := by
  obtain ⟨found, hmatch, hfound⟩ := htakes.takes char rest haccepts
  rw [Pattern.token?, hmatch]
  simp [hfound]

variable (hchar : reading.input.toList[reading.cursor.offset]? = some char)

include hchar

theorem acts_role_idle {label : String} {role : Role} (hsound : role.Sound label)
    (hrule : table.get? label = some (role.rule label)) (haccepts : role.accepts char = false) :
    Acts (Kernel.ofDepth rounds (depth + 5)) id table label ⟨reading, level :: outer⟩ .idle := by
  cases role with
  | opens bracket name matcher =>
      obtain ⟨pattern, hmatcher, htakes⟩ := hsound
      exact acts_open_idle hmatcher htakes hchar hrule haccepts
  | closes bracket name matcher =>
      obtain ⟨pattern, hmatcher, htakes⟩ := hsound
      exact acts_close_idle hmatcher htakes hchar hrule haccepts
  | leaf accepts matcher flags =>
      obtain ⟨pattern, hpattern, htakes⟩ := hsound
      rw [Role.rule, hpattern, Option.getD_some] at hrule
      obtain ⟨hplace, rfl⟩ := List.getElem?_eq_some_iff.mp hchar
      refine acts_captured_idle hrule ?_
      change pattern.token? label (reading.input.toList.drop reading.cursor.offset) = none
      rw [List.drop_eq_getElem_cons hplace]
      exact htakes.token?_skip label _ haccepts

theorem acts_role {label : String} {role : Role} (hsound : role.Sound label)
    (hrule : table.get? label = some (role.rule label)) (haccepts : role.accepts char = true) :
    Acts (Kernel.ofDepth rounds (depth + 5)) id table label ⟨reading, level :: outer⟩
      ((role.mark label).effect reading level outer char) := by
  cases role with
  | opens bracket name matcher =>
      obtain ⟨pattern, hmatcher, htakes⟩ := hsound
      exact acts_open hmatcher htakes hchar hrule haccepts
  | closes bracket name matcher =>
      obtain ⟨pattern, hmatcher, htakes⟩ := hsound
      exact acts_close hmatcher htakes hchar hrule haccepts
  | leaf accepts matcher flags =>
      obtain ⟨pattern, hpattern, htakes⟩ := hsound
      rw [Role.rule, hpattern, Option.getD_some] at hrule
      obtain ⟨hplace, rfl⟩ := List.getElem?_eq_some_iff.mp hchar
      have htoken := htakes.token?_take label
        (reading.input.toList.drop (reading.cursor.offset + 1)) haccepts
      rw [← List.drop_eq_getElem_cons hplace] at htoken
      exact acts_captured_moved hrule htoken

/-- Trying rules in order comes to what the first one does that is for the character. -/
theorem tries_rules {rules : List (String × Role)}
    (hrules : ∀ rule ∈ rules, rule.2.Sound rule.1 ∧
      table.get? rule.1 = some (rule.2.rule rule.1)) :
    Tries (Kernel.ofDepth rounds (depth + 5)) id table ⟨reading, level :: outer⟩
      (rules.map Prod.fst) (markEffect reading level outer char
        ((rules.find? fun rule => rule.2.accepts char).map fun rule => rule.2.mark rule.1)) := by
  induction rules with
  | nil => exact .none
  | cons rule rest ih =>
      obtain ⟨hsound, hrule⟩ := hrules rule List.mem_cons_self
      cases haccepts : rule.2.accepts char with
      | false =>
          simp only [List.find?_cons, haccepts]
          refine .skip (acts_role_idle hchar hsound hrule haccepts) (ih fun other hother => ?_)
          exact hrules other (List.mem_cons_of_mem rule hother)
      | true =>
          simp only [List.find?_cons, haccepts]
          exact .of_acts (acts_role hchar hsound hrule haccepts) (Mark.effect_ne_idle _) _

/-- What a step of a grammar does depends on what the next character means. -/
theorem Grammar.tries_mark (grammar : Grammar) :
    Tries (Kernel.ofDepth rounds (depth + 5)) id grammar.table ⟨reading, level :: outer⟩
      grammar.table.keys (markEffect reading level outer char (grammar.mark? char)) := by
  rw [keys_table]
  exact tries_rules hchar fun rule hrule => ⟨grammar.sound rule hrule, grammar.get?_table hrule⟩

end Step

end Rulebook
