import Rulebook.Proofs.BracketParse

/-!
# Reading and writing brackets

A grammar of brackets whose leaves can be told apart reads back what it has written, and writes what
it has read. Reading a text that is parsed and writing the tree gives the text again; writing a
forest and reading the text gives the trees of the forest.
-/

namespace Rulebook

open Run

namespace Grammar

/-- A grammar has a leaf under a label that takes a character. -/
def HasLeaf (grammar : Grammar) (label : String) (char : Char) : Prop :=
  ∃ accepts matcher flags, (label, .leaf accepts matcher flags) ∈ grammar.rules ∧
    accepts char = true

/-- The leaves of a grammar are told apart by their characters, and no label of a leaf is a kind of
brackets. -/
structure Legible (grammar : Grammar) : Prop where
  leaves : ∀ label other char, grammar.HasLeaf label char → grammar.HasLeaf other char →
    label = other
  kinds : ∀ label char, grammar.HasLeaf label char → ∀ bracket ∈ grammar.brackets,
    label ≠ bracket.kind

mutual

/-- How a grammar writes a tree: a pair of brackets around what is below a node of their kind, and
the text of any other node. -/
def write (grammar : Grammar) : Tree → List Char
  | .node heading below =>
    match grammar.brackets.find? fun bracket => bracket.kind == heading.label with
    | some bracket => bracket.opening :: (grammar.writeAll below ++ [bracket.closing])
    | none => heading.val

/-- How a grammar writes trees side by side. -/
def writeAll (grammar : Grammar) : List Tree → List Char
  | [] => []
  | tree :: rest => grammar.write tree ++ grammar.writeAll rest

end

variable {grammar : Grammar} {label : String} {char : Char}

/-! ## Leaves -/

theorem hasLeaf_of_isLeaf (hleaf : grammar.IsLeaf label char) : grammar.HasLeaf label char := by
  rw [IsLeaf, mark?, Option.map_eq_some_iff] at hleaf
  obtain ⟨⟨found, role⟩, hfound, hmark⟩ := hleaf
  have haccepts := List.find?_some hfound
  have hrule := List.mem_of_find?_eq_some hfound
  cases role with
  | opens => cases hmark
  | closes => cases hmark
  | leaf accepts matcher flags =>
      cases hmark
      exact ⟨accepts, matcher, flags, hrule, haccepts⟩

/-- Where leaves are told apart, a character is read as the one leaf that takes it. -/
theorem Legible.isLeaf (hlegible : grammar.Legible) (hleaf : grammar.HasLeaf label char) :
    grammar.IsLeaf label char := by
  obtain ⟨accepts, matcher, flags, hrule, haccepts⟩ := hleaf
  obtain ⟨other, accepts', matcher', flags', hrule', haccepts', hmark⟩ :=
    mark?_leaf ⟨_, hrule, haccepts⟩ (grammar.apart _ _ _ _ hrule char haccepts)
  have hsame : label = other := hlegible.leaves label other char
    ⟨accepts, matcher, flags, hrule, haccepts⟩ ⟨accepts', matcher', flags', hrule', haccepts'⟩
  rw [IsLeaf, hmark, hsame]

end Grammar

/-! ## Writing what a forest is read as -/

section Write

variable {grammar : Grammar} {leaves others : String → Char → Prop}

mutual

theorem Nest.Over.mono (hleaves : ∀ label char, leaves label char → others label char) :
    ∀ {nest : Nest}, nest.Over grammar.brackets leaves → nest.Over grammar.brackets others
  | .leaf label char, hover => by
      rw [Nest.Over] at hover ⊢
      exact hleaves label char hover
  | .pair bracket inside, hover => by
      rw [Nest.Over] at hover ⊢
      exact ⟨hover.1, Nest.OverAll.mono hleaves hover.2⟩

theorem Nest.OverAll.mono (hleaves : ∀ label char, leaves label char → others label char) :
    ∀ {nests : List Nest}, Nest.OverAll grammar.brackets leaves nests →
      Nest.OverAll grammar.brackets others nests
  | [], _ => by
      rw [Nest.OverAll]
      trivial
  | nest :: rest, hover => by
      rw [Nest.OverAll] at hover ⊢
      exact ⟨Nest.Over.mono hleaves hover.1, Nest.OverAll.mono hleaves hover.2⟩

end

theorem Grammar.find?_kind {bracket : Bracket} (hbracket : bracket ∈ grammar.brackets) :
    (grammar.brackets.find? fun other => other.kind == bracket.kind) = some bracket := by
  cases hfound : grammar.brackets.find? fun other => other.kind == bracket.kind with
  | none => exact absurd (beq_self_eq_true _) (List.find?_eq_none.mp hfound bracket hbracket)
  | some other =>
      have hkind := List.find?_some hfound
      rw [Grammar.eq_of_kind (List.mem_of_find?_eq_some hfound) hbracket (beq_iff_eq.mp hkind)]

mutual

/-- The tree that a nest is read as is written as the nest is. -/
theorem write_grown (hlegible : grammar.Legible) : ∀ {nest : Nest} (cursor : Cursor),
    nest.Over grammar.brackets grammar.HasLeaf →
    grammar.write (nest.grown cursor) = nest.render
  | .leaf label char, cursor, hover => by
      rw [Nest.Over] at hover
      -- a leaf under the kind of a bracket would be written as a pair
      have hnone : (grammar.brackets.find? fun bracket => bracket.kind == label) = none := by
        refine List.find?_eq_none.mpr fun bracket hbracket => ?_
        rw [beq_iff_eq]
        exact (hlegible.kinds label char hover bracket hbracket).symm
      rw [Nest.grown, Tree.leaf, Grammar.write, Nest.render]
      simp only [hnone]
  | .pair bracket inside, cursor, hover => by
      rw [Nest.Over] at hover
      obtain ⟨hbracket, hinside⟩ := hover
      have hwithin := writeAll_grown hlegible (cursor.advance [bracket.opening]) hinside
      rw [Nest.grown, Grammar.write, Nest.render, ← hwithin]
      simp only [Grammar.find?_kind hbracket]

theorem writeAll_grown (hlegible : grammar.Legible) : ∀ {nests : List Nest} (cursor : Cursor),
    Nest.OverAll grammar.brackets grammar.HasLeaf nests →
    grammar.writeAll (Nest.grownAll cursor nests) = Nest.renderAll nests
  | [], cursor, _ => by
      rw [Nest.grownAll, Grammar.writeAll, Nest.renderAll]
  | nest :: rest, cursor, hover => by
      rw [Nest.OverAll] at hover
      rw [Nest.grownAll, Grammar.writeAll, Nest.renderAll, write_grown hlegible cursor hover.1,
        writeAll_grown hlegible _ hover.2]

end

end Write

/-! ## Texts with other characters -/

section Unread

variable {rounds depth : Nat} {grammar : Grammar} {text : String} {world : World}

theorem exists_first_bad {α : Type} {good : α → Prop} {values : List α}
    (hbad : ¬ ∀ value ∈ values, good value) :
    ∃ before value rest, values = before ++ value :: rest ∧ (∀ other ∈ before, good other) ∧
      ¬ good value := by
  induction values with
  | nil => exact absurd nofun hbad
  | cons value rest ih =>
      by_cases hvalue : good value
      · have hrest : ¬ ∀ other ∈ rest, good other :=
          fun hall => hbad (List.forall_mem_cons.mpr ⟨hvalue, hall⟩)
        obtain ⟨before, other, further, rfl, hbefore, hother⟩ := ih hrest
        exact ⟨value :: before, other, further, rfl, List.forall_mem_cons.mpr ⟨hvalue, hbefore⟩,
          hother⟩
      · exact ⟨[], value, rest, rfl, nofun, hvalue⟩

/-- A parse does not come past a character that is not read. -/
theorem goes_unread {before rest : List Char} {char : Char}
    (htext : text.toList = before ++ char :: rest)
    (hreads : ∀ other ∈ before, grammar.Reads other) (hunread : ¬ grammar.Reads char)
    (root stack : Nat) :
    ∃ ending : Ending, (∀ value, ending.result ≠ .ok value) ∧
      ∀ id, Goes (Kernel.ofDepth rounds (depth + 5)) id grammar.table (.start text root stack)
        ending := by
  rcases leavesOpen_or_mismatch grammar.brackets before with
    ⟨still, hopen⟩ | ⟨place, bracket, hmismatch⟩
  · let start : Reading := ⟨text, .start, root, stack⟩
    have hrest : start.input.toList.drop start.cursor.offset = before ++ char :: rest := htext
    obtain ⟨innermost, outer, _, hgoes⟩ := goes_leavesOpen hopen hreads hrest
    have hchar := Reading.getElem?_of_rest (Reading.drop_past hrest)
    have hmark : grammar.mark? char = none := by
      rw [Grammar.mark?, Option.map_eq_none_iff, List.find?_eq_none]
      exact fun rule hrule haccepts => hunread ⟨rule, hrule, haccepts⟩
    refine ⟨.stuck ⟨start.past before, innermost :: outer⟩ char, (fun _ hok => by cases hok),
      fun id => ?_⟩
    have htries := @Grammar.tries_mark rounds depth id _ innermost outer _ hchar grammar
    rw [hmark, markEffect] at htries
    exact hgoes id _ (.stuck hchar htries)
  · -- the parse does not even get to the character
    refine ⟨.failed (.noOpenNode bracket.kind (.ofPlace text.toList (place + 1))),
      (fun _ hok => by cases hok), ?_⟩
    have hmismatch' : Mismatch grammar.brackets text.toList place bracket := by
      rw [htext]
      exact hmismatch.append (char :: rest)
    obtain ⟨hplace, _⟩ := List.getElem?_eq_some_iff.mp hmismatch.closes
    refine fun id => goes_mismatch hmismatch' fun other hother => hreads other ?_
    rw [htext, List.take_append_of_le_length (Nat.le_of_lt hplace)] at hother
    exact List.mem_of_mem_take hother

theorem parse_unread_gives (hunread : ¬ ∀ char ∈ text.toList, grammar.Reads char)
    (hrounds : text.toList.length < rounds) :
    (parseWith (Kernel.ofDepth rounds (depth + 7)) grammar.registrations text).Gives world
      fun found _ => ∀ value, found.2 ≠ .ok value := by
  obtain ⟨before, char, rest, htext, hreads, hchar⟩ := exists_first_bad hunread
  choose ending hending hgoes using
    @goes_unread rounds depth grammar text before rest char htext hreads hchar
  refine Gives.mono (Grammar.parse_gives ending hgoes hrounds) ?_
  rintro found after ⟨root, stack, hresult, _⟩ value hvalue
  exact hending root stack value (hresult.symm.trans hvalue)

end Unread

/-! ## There and back -/

section RoundTrip

variable {rounds depth : Nat} {grammar : Grammar}

/-- A text that is parsed is what is written for the trees below the root. -/
theorem parse_write_gives (hlegible : grammar.Legible) {world : World} {text : String}
    (hrounds : text.toList.length < rounds) :
    (parseWith (Kernel.ofDepth rounds (depth + 7)) grammar.registrations text).Gives world
      fun found after => ∀ value, found.2 = .ok value → ∃ root trees, value = .node root ∧
        after.Holds .null root (.node ⟨"root", [], none⟩ trees) ∧
        grammar.writeAll trees = text.toList := by
  -- a text that is not well nested, or has other characters, is not parsed
  by_cases hreads : ∀ char ∈ text.toList, grammar.Reads char
  · obtain ⟨verdict, hjudged⟩ := exists_judged grammar.brackets text.toList
    cases verdict with
    | nested =>
        cases hjudged with
        | nested htext =>
            obtain ⟨forest, hforest, hrender⟩ := htext.exists_forest (Grammar.exists_leaf hreads)
            refine Gives.mono (parse_forest_gives hforest hrender.symm hrounds) ?_
            rintro found after ⟨root, hresult, hholds⟩ value hvalue
            cases hresult.symm.trans hvalue
            refine ⟨root, _, rfl, hholds, ?_⟩
            rw [← hrender]
            exact writeAll_grown hlegible .start
              (hforest.mono fun label char => Grammar.hasLeaf_of_isLeaf)
    | mismatch place bracket =>
        refine Gives.mono (parse_judged_gives hjudged hreads hrounds) ?_
        intro found after hfault value hvalue
        cases hfault.symm.trans hvalue
    | unclosed bracket =>
        refine Gives.mono (parse_judged_gives hjudged hreads hrounds) ?_
        intro found after hfault value hvalue
        cases hfault.symm.trans hvalue
  · refine Gives.mono (parse_unread_gives hreads hrounds) ?_
    intro found after hfault value hvalue
    exact absurd hvalue (hfault value)

/-- Reading and writing are inverse to each other: for every text that is parsed, what is written
for the children of the root is the text; and for every forest of brackets and leaves, reading what
is written for it gives a root whose children are the trees of the forest. -/
theorem parse_roundTrip (hlegible : grammar.Legible) :
    (∀ (world : World) (text : String), text.toList.length < rounds →
      (parseWith (Kernel.ofDepth rounds (depth + 7)) grammar.registrations text).Gives world
        fun found after => ∀ value, found.2 = .ok value → ∃ root trees, value = .node root ∧
          after.Holds .null root (.node ⟨"root", [], none⟩ trees) ∧
          grammar.writeAll trees = text.toList) ∧
      ∀ (world : World) (forest : List Nest),
        Nest.OverAll grammar.brackets grammar.HasLeaf forest →
        (Nest.renderAll forest).length < rounds →
        (parseWith (Kernel.ofDepth rounds (depth + 7)) grammar.registrations
          (String.ofList (Nest.renderAll forest))).Gives world
          fun found after => ∃ root, found.2 = .ok (.node root) ∧
            after.Holds .null root (.node ⟨"root", [], none⟩ (Nest.grownAll .start forest)) := by
  refine ⟨fun world text hrounds => parse_write_gives hlegible hrounds, ?_⟩
  intro world forest hforest hrounds
  have htext := @String.toList_ofList (Nest.renderAll forest)
  refine parse_forest_gives (hforest.mono fun label char => hlegible.isLeaf) htext ?_
  rw [htext]
  exact hrounds

theorem Grammar.legible_roundSquare : Grammar.roundSquare.Legible := by
  have hslash : ∀ label char, Grammar.roundSquare.HasLeaf label char → label = "slash" := by
    rintro label char ⟨accepts, matcher, flags, hrule, _⟩
    have hentry : label = "slash" ∧ accepts = (· == '/') ∧ matcher = .source "^/" ∧ flags = "" := by
      simpa [Grammar.roundSquare, Role.opensAt, Role.closesAt] using hrule
    exact hentry.1
  refine ⟨?_, ?_⟩
  · intro label other char hlabel hother
    rw [hslash label char hlabel, hslash other char hother]
  · intro label char hlabel bracket hbracket
    rw [hslash label char hlabel]
    rcases List.mem_pair.mp hbracket with rfl | rfl <;> decide

/-- A slash beside round brackets around another one. -/
def slashes : List Nest := [.leaf "slash" '/', .pair .round [.leaf "slash" '/']]

theorem parse_slashes :
    Grammar.roundSquare.Legible ∧
      Nest.OverAll Grammar.roundSquare.brackets Grammar.roundSquare.HasLeaf slashes ∧
      (Nest.renderAll slashes).length < 5 ∧
      (parseWith (Kernel.ofDepth 5 7) Grammar.roundSquare.registrations
        (String.ofList (Nest.renderAll slashes))).Gives .start
        (fun found after => ∃ root, found.2 = .ok (.node root) ∧
          after.Holds .null root (.node ⟨"root", [], none⟩
            [.leaf ⟨"slash", ['/'], some (⟨1, 1, 0⟩, ⟨1, 2, 1⟩)⟩,
              .node ⟨"round", [], some (⟨1, 2, 1⟩, ⟨1, 3, 2⟩)⟩
                [.leaf ⟨"slash", ['/'], some (⟨1, 3, 2⟩, ⟨1, 4, 3⟩)⟩]])) ∧
      "[/]".toList.length < 5 ∧
      (parseWith (Kernel.ofDepth 5 7) Grammar.roundSquare.registrations "[/]").Gives .start
        fun found after => ∀ value, found.2 = .ok value → ∃ root trees, value = .node root ∧
          after.Holds .null root (.node ⟨"root", [], none⟩ trees) ∧
          Grammar.roundSquare.writeAll trees = ['[', '/', ']'] := by
  have hslash : Grammar.roundSquare.HasLeaf "slash" '/' :=
    ⟨(· == '/'), .source "^/", "", by simp [Grammar.roundSquare], by decide⟩
  have hforest : Nest.OverAll Grammar.roundSquare.brackets Grammar.roundSquare.HasLeaf slashes := by
    simp only [slashes, Nest.OverAll, Nest.Over, and_true]
    exact ⟨hslash, List.mem_cons_self, hslash⟩
  have hrounds : (Nest.renderAll slashes).length < 5 := by decide
  have hlength : "[/]".toList.length < 5 := by decide
  obtain ⟨hwritten, hread⟩ := @parse_roundTrip 5 0 _ Grammar.legible_roundSquare
  exact ⟨Grammar.legible_roundSquare, hforest, hrounds, hread .start slashes hforest hrounds,
    hlength, hwritten .start "[/]" hlength⟩

end RoundTrip

end Rulebook
