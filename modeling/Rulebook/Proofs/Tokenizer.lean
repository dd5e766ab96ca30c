import Rulebook.Proofs.PatternRule
import Rulebook.Proofs.Place
import Rulebook.Proofs.Prefix
import Rulebook.Proofs.Registration

/-!
# Captured patterns as a tokenizer

A table of patterns reads a text token by token: at each place the first pattern in the order of the
table takes its match, unless that is empty, and reading stops where no pattern takes anything. A
parser with such a table does the same, and puts the tokens below the root of its tree.
-/

namespace Rulebook

/-- What a pattern takes from a text. It is never nothing. -/
structure Token where
  label : String
  word : List Char
  consumes : word ≠ []
deriving DecidableEq

/-- The token that a pattern takes from the beginning of a text. -/
def Pattern.token? (pattern : Pattern) (label : String) (text : List Char) : Option Token :=
  match pattern.match? text with
  | some found => if hword : found.text ≠ [] then some ⟨label, found.text, hword⟩ else none
  | none => none

/-- The token of the first pattern that takes one. -/
def firstToken (patterns : Table String Pattern) (text : List Char) : Option Token :=
  patterns.entries.findSome? fun entry => entry.2.token? entry.1 text

/-- The tokens at the beginning of a text, and what is left where there is no further one. -/
def tokens (patterns : Table String Pattern) (text : List Char) : List Token × List Char :=
  match text with
  | [] => ([], [])
  | char :: rest =>
    match firstToken patterns (char :: rest) with
    | none => ([], char :: rest)
    | some token =>
      let following := tokens patterns ((char :: rest).drop token.word.length)
      (token :: following.1, following.2)
termination_by text.length
decreasing_by
  have hword := List.length_pos_iff.mpr token.consumes
  rw [List.length_drop, List.length_cons]
  omega

/-- The trees of tokens from a cursor on, each of which ends where the next one begins. -/
def tiles (cursor : Cursor) : List Token → List Tree
  | [] => []
  | token :: rest =>
    .leaf ⟨token.label, token.word, some (cursor, cursor.advance token.word)⟩ ::
      tiles (cursor.advance token.word) rest

/-- The table with every entry changed. -/
def Table.map {κ α β : Type} (change : α → β) (table : Table κ α) : Table κ β :=
  ⟨table.entries.map fun entry => (entry.1, change entry.2)⟩

section Table

variable {κ α β : Type}

theorem Table.keys_map (change : α → β) (table : Table κ α) :
    (table.map change).keys = table.keys := by
  rw [keys, map, List.map_map]
  rfl

variable [DecidableEq κ]

/-- An entry under a key that comes once is the one that is found. -/
theorem Table.get?_of_mem {table : Table κ α} {key : κ} {entry : α} (hnodup : table.keys.Nodup)
    (hmem : (key, entry) ∈ table.entries) : table.get? key = some entry := by
  obtain ⟨entries⟩ := table
  change entries.lookup key = some entry
  change (entries.map Prod.fst).Nodup at hnodup
  induction entries with
  | nil => cases hmem
  | cons head rest ih =>
      obtain ⟨other, old⟩ := head
      rw [List.map_cons, List.nodup_cons] at hnodup
      rcases List.mem_cons.mp hmem with heq | hrest
      · cases heq
        rw [List.lookup_cons_self]
      · have hne : key ≠ other := by
          rintro rfl
          exact hnodup.1 (List.mem_map.mpr ⟨(key, entry), hrest, rfl⟩)
        rw [List.lookup_cons, beq_false_of_ne hne]
        exact ih hrest hnodup.2

theorem Table.map_insert (change : α → β) (table : Table κ α) (key : κ) (entry : α) :
    (table.insert key entry).map change = (table.map change).insert key (change entry) := by
  obtain ⟨entries⟩ := table
  have hentries : (insertEntry key entry entries).map (fun entry => (entry.1, change entry.2)) =
      insertEntry key (change entry) (entries.map fun entry => (entry.1, change entry.2)) := by
    induction entries with
    | nil => rfl
    | cons head rest ih =>
        simp only [insertEntry, List.map_cons]
        split
        next => rfl
        next => rw [List.map_cons, ih]
  exact congrArg Table.mk hentries

end Table

/-! ## The effect of a captured pattern -/

/-- The stage after a token. -/
def Stage.after (reading : Reading) (level : Level) (outer : List Level) (token : Token) :
    Stage where
  reading := { reading with cursor := reading.cursor.advance token.word }
  levels := level.add (.leaf (reading.heading token.label token.word)) :: outer

/-- What taking the first token comes to. -/
def tokenEffect (reading : Reading) (level : Level) (outer : List Level) : Option Token → Effect
  | some token => .moved (.after reading level outer token)
  | none => .idle

section Effect

variable {rounds depth : Nat} {id : HostId} {table : Table String Rule} {label : String}
  {pattern : Pattern} {stage : Stage} {reading : Reading} {level : Level} {outer : List Level}

theorem acts_captured_idle (hrule : table.get? label = some (.captured pattern))
    (htoken : pattern.token? label
      (stage.reading.input.toList.drop stage.reading.cursor.offset) = none) :
    Acts (Kernel.ofDepth rounds (depth + 4)) id table label stage .idle := by
  refine ⟨nofun, fun world hparses => ?_⟩
  refine Run.Gives.mono (apply_captured_idle hparses.reads hparses.ruled hrule ?_) ?_
  · intro found hmatch
    rw [Pattern.token?, hmatch] at htoken
    by_contra hword
    simp [hword] at htoken
  · rintro _ _ ⟨rfl, rfl⟩
    exact ⟨rfl, hparses⟩

/-- A pattern that takes a token puts it below the innermost open node. -/
theorem acts_captured_moved {token : Token} (hrule : table.get? label = some (.captured pattern))
    (htoken : pattern.token? label (reading.input.toList.drop reading.cursor.offset) =
      some token) :
    Acts (Kernel.ofDepth rounds (depth + 5)) id table label ⟨reading, level :: outer⟩
      (.moved (.after reading level outer token)) := by
  have hword := List.length_pos_iff.mpr token.consumes
  refine ⟨fun next heq => ?_, fun world hparses => ?_⟩
  · cases heq
    refine ⟨rfl, ?_⟩
    simp only [Stage.after, Cursor.offset_advance]
    omega
  · rw [Pattern.token?] at htoken
    split at htoken
    next found hmatch =>
      split at htoken
      next hfound =>
        cases htoken
        refine Run.Gives.mono (apply_captured_found hparses.reads hparses.ruled hrule
          hparses.innermost hmatch hfound) ?_
        rintro value after ⟨_, cell, hnew, rfl⟩
        exact ⟨trivial, (hparses.setCursor _).addLeaf hnew⟩
      next => cases htoken
    next => cases htoken

theorem tries_captured {entries : List (String × Pattern)}
    (hrules : ∀ entry ∈ entries, table.get? entry.1 = some (.captured entry.2)) :
    Tries (Kernel.ofDepth rounds (depth + 5)) id table ⟨reading, level :: outer⟩
      (entries.map Prod.fst)
      (tokenEffect reading level outer (entries.findSome? fun entry =>
        entry.2.token? entry.1 (reading.input.toList.drop reading.cursor.offset))) := by
  induction entries with
  | nil => exact .none
  | cons entry rest ih =>
      have hrule := hrules entry List.mem_cons_self
      rw [List.findSome?_cons]
      cases htoken : entry.2.token? entry.1
          (reading.input.toList.drop reading.cursor.offset) with
      | none =>
          refine .skip (acts_captured_idle hrule htoken) (ih fun other hother => ?_)
          exact hrules other (List.mem_cons_of_mem entry hother)
      | some token => exact .moved (acts_captured_moved hrule htoken)

theorem tries_firstToken {patterns : Table String Pattern} (hnodup : patterns.keys.Nodup)
    (reading : Reading) (level : Level) (outer : List Level) :
    Tries (Kernel.ofDepth rounds (depth + 5)) id (patterns.map .captured)
      ⟨reading, level :: outer⟩ (patterns.map Rule.captured).keys
      (tokenEffect reading level outer
        (firstToken patterns (reading.input.toList.drop reading.cursor.offset))) := by
  rw [Table.keys_map]
  refine tries_captured fun entry hentry => ?_
  refine Table.get?_of_mem ?_ (List.mem_map_of_mem hentry)
  rw [Table.keys_map]
  exact hnodup

end Effect

/-! ## The whole text -/

section Whole

variable {rounds depth : Nat} {id : HostId} {patterns : Table String Pattern} {reading : Reading}
  {level : Level} {text : List Char}

theorem tokens_nil : tokens patterns [] = ([], []) := by
  rw [tokens]

theorem tokens_none {char : Char} {rest : List Char}
    (hfirst : firstToken patterns (char :: rest) = none) :
    tokens patterns (char :: rest) = ([], char :: rest) := by
  rw [tokens, hfirst]

theorem tokens_some {char : Char} {rest : List Char} {token : Token}
    (hfirst : firstToken patterns (char :: rest) = some token) :
    tokens patterns (char :: rest) =
      (token :: (tokens patterns ((char :: rest).drop token.word.length)).1,
        (tokens patterns ((char :: rest).drop token.word.length)).2) := by
  rw [tokens, hfirst]

/-- The stage after tokens below the root. -/
def Stage.afterAll (reading : Reading) (level : Level) (taken : List Token) : Stage where
  reading := { reading with cursor := reading.cursor.advance (taken.flatMap Token.word) }
  levels := [{ level with done := level.done ++ tiles reading.cursor taken }]

/-- How a parse ends that has taken tokens and left a text unread. -/
def tokensEnding (reading : Reading) (level : Level) : List Token × List Char → Ending
  | (taken, []) => .finished (.afterAll reading level taken)
  | (taken, char :: _) => .stuck (.afterAll reading level taken) char

theorem afterAll_nil : Stage.afterAll reading level [] = ⟨reading, [level]⟩ := by
  simp [Stage.afterAll, tiles]

theorem tokensEnding_cons (token : Token) (found : List Token × List Char) :
    tokensEnding reading level (token :: found.1, found.2) =
      tokensEnding { reading with cursor := reading.cursor.advance token.word }
        (level.add (.leaf (reading.heading token.label token.word))) found := by
  obtain ⟨following, unread⟩ := found
  have hafter : Stage.afterAll reading level (token :: following) =
      .afterAll { reading with cursor := reading.cursor.advance token.word }
        (level.add (.leaf (reading.heading token.label token.word))) following := by
    simp only [Stage.afterAll, List.flatMap_cons, Cursor.advance_append, tiles, Level.add,
      Reading.heading, List.append_assoc, List.singleton_append]
  cases unread with
  | nil => exact congrArg Ending.finished hafter
  | cons char rest => exact congrArg (Ending.stuck · char) hafter

/-- A parse with captured patterns takes their tokens one after another. -/
theorem goes_tokens (hnodup : patterns.keys.Nodup)
    (hrest : reading.input.toList.drop reading.cursor.offset = text) :
    Goes (Kernel.ofDepth rounds (depth + 5)) id (patterns.map .captured) ⟨reading, [level]⟩
      (tokensEnding reading level (tokens patterns text)) := by
  induction text using tokens.induct patterns generalizing reading level with
  | case1 =>
      rw [tokens_nil, tokensEnding, afterAll_nil]
      refine .finished ?_
      have hlength := congrArg List.length hrest
      rwa [List.length_drop] at hlength
  | case2 char rest hfirst =>
      have htries := @tries_firstToken rounds depth id patterns hnodup reading level []
      rw [hrest, hfirst] at htries
      rw [tokens_none hfirst, tokensEnding, afterAll_nil]
      exact .stuck (Reading.getElem?_of_rest hrest) htries
  | case3 char rest token hfirst ih =>
      have htries := @tries_firstToken rounds depth id patterns hnodup reading level []
      rw [hrest, hfirst] at htries
      rw [tokens_some hfirst, tokensEnding_cons]
      -- the token moves the cursor, and the rest is read from behind it
      refine .onward (Stage.left_pos (Reading.getElem?_of_rest hrest)) htries (ih ?_)
      rw [← hrest, List.drop_drop, Cursor.offset_advance]

/-! ## What is left -/

/-- The tokens and what is left make up the text. -/
theorem tokens_append (hbegin : ∀ entry ∈ patterns.entries, entry.2.TakesPrefixes)
    (text : List Char) :
    (tokens patterns text).1.flatMap Token.word ++ (tokens patterns text).2 = text := by
  induction text using tokens.induct patterns with
  | case1 => simp [tokens_nil]
  | case2 char rest hfirst => simp [tokens_none hfirst]
  | case3 char rest token hfirst ih =>
      have hword : token.word <+: char :: rest := by
        rw [firstToken, List.findSome?_eq_some_iff] at hfirst
        obtain ⟨_, entry, _, hentries, htoken, _⟩ := hfirst
        have hentry : entry ∈ patterns.entries := by simp [hentries]
        rw [Pattern.token?] at htoken
        split at htoken
        next found hmatch =>
          split at htoken
          next =>
            cases htoken
            exact hbegin entry hentry _ _ hmatch
          next => cases htoken
        next => cases htoken
      rw [tokens_some hfirst, List.flatMap_cons, List.append_assoc, ih]
      exact List.prefix_iff_eq_append.mp hword

end Whole

/-! ## Parsing -/

/-- The patterns after a capture, unless it is refused. -/
def Capture.enter (patterns : Table String Pattern) (given : Capture) : Table String Pattern :=
  match given.pattern? with
  | some pattern => patterns.insert given.label pattern
  | none => patterns

/-- The patterns that are captured from the first to the last. -/
def capturedPatterns (captures : List Capture) : Table String Pattern :=
  captures.foldl Capture.enter .empty

theorem registered_captures (captures : List Capture) :
    registered (captures.map .capture) = (capturedPatterns captures).map .captured := by
  have hfold : ∀ patterns : Table String Pattern,
      (captures.map Registration.capture).foldl Registration.enter (patterns.map .captured) =
        (captures.foldl Capture.enter patterns).map .captured := by
    induction captures with
    | nil => intro patterns; rfl
    | cons given rest ih =>
        intro patterns
        rw [List.map_cons, List.foldl_cons, List.foldl_cons, Registration.enter, Capture.enter]
        cases given.pattern? with
        | none => exact ih patterns
        | some pattern => rw [← ih, Table.map_insert]
  exact hfold .empty

theorem nodup_capturedPatterns (captures : List Capture) :
    (capturedPatterns captures).keys.Nodup := by
  have hfold : ∀ patterns : Table String Pattern, patterns.keys.Nodup →
      (captures.foldl Capture.enter patterns).keys.Nodup := by
    induction captures with
    | nil => intro patterns hnodup; exact hnodup
    | cons given rest ih =>
        intro patterns hnodup
        rw [List.foldl_cons, Capture.enter]
        cases given.pattern? with
        | none => exact ih patterns hnodup
        | some pattern => exact ih _ (Table.nodup_insert patterns pattern hnodup)
  exact hfold .empty .nil

theorem cursor_afterAll {reading : Reading} {taken : List Token} {unread : List Char}
    (level : Level) (hcursor : reading.cursor = .start)
    (happend : taken.flatMap Token.word ++ unread = reading.input.toList) :
    (Stage.afterAll reading level taken).reading.cursor =
      .ofPlace reading.input.toList (taken.flatMap Token.word).length :=
  Reading.cursor_past hcursor happend

variable {world : World} {rounds depth : Nat} {captures : List Capture} {text : String}

theorem parseCaptured_gives
    (hbegin : ∀ entry ∈ (capturedPatterns captures).entries, entry.2.TakesPrefixes)
    (hrounds : text.toList.length < rounds) :
    (parseWith (Kernel.ofDepth rounds (depth + 7)) (captures.map .capture) text).Gives world
      fun found after => ∃ reading taken unread,
        tokens (capturedPatterns captures) text.toList = (taken, unread) ∧
        taken.flatMap Token.word ++ unread = text.toList ∧
        reading.input = text ∧ reading.cursor = .start ∧
        found.2 = (tokensEnding reading .root (taken, unread)).result ∧
        after.Parses found.1 (registered (captures.map .capture))
          (.afterAll reading .root taken) := by
  have happend := tokens_append hbegin text.toList
  rcases htokens : tokens (capturedPatterns captures) text.toList with ⟨taken, unread⟩
  rw [htokens] at happend
  have hgoes : ∀ id root stack, Goes (Kernel.ofDepth rounds (depth + 5)) id
      (registered (captures.map .capture)) (.start text root stack)
      (tokensEnding ⟨text, .start, root, stack⟩ .root (taken, unread)) := by
    intro id root stack
    rw [registered_captures, ← htokens]
    exact goes_tokens (nodup_capturedPatterns captures) rfl
  refine Run.Gives.mono (parseWith_gives _ hgoes hrounds) ?_
  rintro found after ⟨root, stack, hresult, hafter⟩
  refine ⟨⟨text, .start, root, stack⟩, taken, unread, rfl, happend, rfl, rfl, hresult, ?_⟩
  cases unread with
  | nil => exact hafter _ rfl
  | cons char rest => exact hafter _ rfl

/-- Whatever is captured, reading a text takes its tokens: a parse that succeeds gives the root of a
tree with the tokens below it, one after another, and it succeeds if they make up the text;
otherwise it complains about the first character that no token begins at. -/
theorem parse_captured_tokens
    (hbegin : ∀ entry ∈ (capturedPatterns captures).entries, entry.2.TakesPrefixes)
    (hrounds : text.toList.length < rounds) :
    (parseWith (Kernel.ofDepth rounds (depth + 7)) (captures.map .capture) text).Gives world
      fun found after =>
        match tokens (capturedPatterns captures) text.toList with
        | (taken, []) => ∃ root, found.2 = .ok (.node root) ∧
            after.Holds .null root (.node ⟨"root", [], none⟩ (tiles .start taken))
        | (_, char :: rest) =>
            found.2 = .error (.unexpectedCharacter (Text.quoted (String.ofList [char]))
              (.ofPlace text.toList (text.toList.length - (char :: rest).length))) := by
  refine Run.Gives.mono (parseCaptured_gives hbegin hrounds) ?_
  rintro found after ⟨reading, taken, unread, htokens, happend, rfl, hcursor, hresult, hafter⟩
  rw [htokens]
  cases unread with
  | nil =>
      rw [← hcursor]
      exact ⟨reading.root, hresult, hafter.grows.holds⟩
  | cons char rest =>
      have hplace : (taken.flatMap Token.word).length =
          reading.input.toList.length - (char :: rest).length := by
        rw [← happend, List.length_append, Nat.add_sub_cancel]
      have hpointer : (Stage.afterAll reading .root taken).reading.pointer =
          .ofPlace reading.input.toList (taken.flatMap Token.word).length :=
        Reading.pointer_ofPlace (cursor_afterAll .root hcursor happend)
      change found.2 = .error (.unexpectedCharacter _
        (.ofPlace _ (reading.input.toList.length - (char :: rest).length)))
      rw [← hplace, ← hpointer]
      exact hresult

/-- A pattern for a slash and one for a comma. -/
def slashComma : List Capture := [⟨"slash", .source "^/", ""⟩, ⟨"comma", .source "^,", ""⟩]

theorem takesPrefixes_slashComma :
    ∀ entry ∈ (capturedPatterns slashComma).entries, entry.2.TakesPrefixes := by
  have hkeeps : ∀ entry ∈ (capturedPatterns slashComma).entries,
      entry.2.dialect = .plain ∨ entry.2.expr.keepsAll = true := by decide +kernel
  exact fun entry hentry => Pattern.takesPrefixes (hkeeps entry hentry)

theorem parse_slash_comma :
    (∀ entry ∈ (capturedPatterns slashComma).entries, entry.2.TakesPrefixes) ∧
      "/,".toList.length < 3 ∧
      (parseWith (Kernel.ofDepth 3 7) (slashComma.map .capture) "/,").Gives .start
        fun found after => ∃ root, found.2 = .ok (.node root) ∧
          after.Holds .null root (.node ⟨"root", [], none⟩
            [.leaf ⟨"slash", ['/'], some (⟨1, 1, 0⟩, ⟨1, 2, 1⟩)⟩,
              .leaf ⟨"comma", [','], some (⟨1, 2, 1⟩, ⟨1, 3, 2⟩)⟩]) := by
  have htokens : tokens (capturedPatterns slashComma) "/,".toList =
      ([⟨"slash", ['/'], by decide⟩, ⟨"comma", [','], by decide⟩], []) := by decide +kernel
  have hrounds : "/,".toList.length < 3 := by decide
  refine ⟨takesPrefixes_slashComma, hrounds, ?_⟩
  refine Run.Gives.mono (parse_captured_tokens takesPrefixes_slashComma hrounds) ?_
  intro found after hpost
  rw [htokens] at hpost
  exact hpost

end Rulebook
