import Mathlib.Algebra.Group.Nat.Defs
import Mathlib.Data.List.Basic
import Rulebook.Text.Quoted

/-!
# What is written can be told apart

A way of writing things ends itself if, whatever stands behind one of them, it can be told which one
was written and where it ends. A text in quotes does so, whatever quotes, backslashes, commas or
brackets it holds, because each of its characters is written in a way that can be read back; a
whole number does so if it is followed by something that is not part of a number; and a list in
brackets does so if its items do.
-/

namespace Rulebook.Text

section EndsItself

variable {α : Type} {write : α → List Char} {one : α}

/-- If something is written like one thing, it is that thing, and the same follows. -/
def EndsItself (write : α → List Char) (one : α) : Prop :=
  ∀ other rest more, write one ++ rest = write other ++ more → one = other ∧ rest = more

theorem EndsItself.behind (hends : EndsItself write one) (before : List Char) {other : α}
    {rest more : List Char}
    (hsame : before ++ (write one ++ rest) = before ++ (write other ++ more)) :
    one = other ∧ rest = more :=
  hends other rest more (List.append_cancel_left hsame)

theorem EndsItself.eq (hends : EndsItself write one) {other : α} (hsame : write one = write other) :
    one = other :=
  (hends other [] [] (by rw [hsame])).1

end EndsItself

/-- The characters of a text that is always the same. -/
def fixed (text : String) : List Char := text.toList

theorem ofList_fixed (text : String) : String.ofList (fixed text) = text := String.ofList_toList

/-! ## Digits -/

/-- The number that hexadecimal digits stand for. -/
def readHex (digits : List Char) : Nat :=
  digits.foldl (fun number digit =>
    number * 16 + ((List.range 16).find? fun value => Nat.digitChar value == digit).getD 0) 0

theorem find_digitChar : ∀ value < 16,
    (List.range 16).find? (fun other => Nat.digitChar other == Nat.digitChar value) =
      some value := by
  decide

@[simp] theorem length_hexDigits (count number : Nat) :
    (hexDigits count number).length = count := by
  induction count generalizing number with
  | zero => rfl
  | succ count ih => rw [hexDigits, List.length_append, ih, List.length_singleton]

theorem readHex_hexDigits {count number : Nat} (hnumber : number < 16 ^ count) :
    readHex (hexDigits count number) = number := by
  induction count generalizing number with
  | zero =>
      have hzero : number = 0 := by simpa using hnumber
      rw [hzero]
      rfl
  | succ count ih =>
      have hhigh : number / 16 < 16 ^ count := by
        rw [Nat.div_lt_iff_lt_mul (by decide), ← Nat.pow_succ]
        exact hnumber
      have hlast := find_digitChar (number % 16) (Nat.mod_lt _ (by decide))
      have hread := ih hhigh
      rw [readHex] at hread ⊢
      rw [hexDigits, List.foldl_append, hread]
      simp only [List.foldl_cons, List.foldl_nil, hlast, Option.getD_some]
      omega

/-! ## Escapes -/

/-- The character whose code the next digits are, and what follows them. -/
def readCode (count : Nat) (text : List Char) : Char × List Char :=
  (Char.ofNat (readHex (text.take count)), text.drop count)

/-- The character that is written first, and what follows it. -/
def readEscaped : List Char → Option (Char × List Char)
  | '\\' :: 'n' :: rest => some ('\n', rest)
  | '\\' :: 't' :: rest => some ('\t', rest)
  | '\\' :: 'r' :: rest => some ('\r', rest)
  | '\\' :: 'x' :: rest => some (readCode 2 rest)
  | '\\' :: 'u' :: rest => some (readCode 4 rest)
  | '\\' :: 'U' :: rest => some (readCode 8 rest)
  | '\\' :: char :: rest => some (char, rest)
  | char :: rest => some (char, rest)
  | [] => none

theorem readCode_hexDigits {count : Nat} {char : Char} (hcode : char.toNat < 16 ^ count)
    (rest : List Char) : readCode count (hexDigits count char.toNat ++ rest) = (char, rest) := by
  have htake : (hexDigits count char.toNat ++ rest).take count = hexDigits count char.toNat := by
    rw [List.take_left' (length_hexDigits _ _)]
  have hdrop : (hexDigits count char.toNat ++ rest).drop count = rest := by
    rw [List.drop_left' (length_hexDigits _ _)]
  rw [readCode, htake, hdrop, readHex_hexDigits hcode, Char.ofNat_toNat]

theorem toNat_lt (char : Char) : char.toNat < 16 ^ 8 := by
  have hvalid := char.valid
  simp only [UInt32.isValidChar, Nat.isValidChar] at hvalid
  simp only [Char.toNat]
  omega

theorem codeEscape_cons (char : Char) : ∃ tail, codeEscape char = '\\' :: tail := by
  rw [codeEscape]
  split_ifs
  · exact ⟨_, rfl⟩
  · exact ⟨_, rfl⟩
  · exact ⟨_, rfl⟩

theorem readEscaped_codeEscape (char : Char) (rest : List Char) :
    readEscaped (codeEscape char ++ rest) = some (char, rest) := by
  rw [codeEscape]
  split_ifs with htwo hfour
  · exact congrArg some (readCode_hexDigits htwo rest)
  · exact congrArg some (readCode_hexDigits hfour rest)
  · exact congrArg some (readCode_hexDigits (toNat_lt char) rest)

section Quoted

variable {quote : Char} (hquote : quote = '\'' ∨ quote = '"') (printable : Char → Bool)

include hquote

/-- A character can be read back from how it is written between quotes. -/
theorem readEscaped_escaped (char : Char) (rest : List Char) :
    readEscaped (escaped printable quote char ++ rest) = some (char, rest) := by
  rw [escaped]
  split_ifs with hself hbreak htab hreturn
  · rcases hself with rfl | rfl
    · rcases hquote with rfl | rfl <;> rfl
    · rfl
  · rw [hbreak]
    rfl
  · rw [htab]
    rfl
  · rw [hreturn]
    rfl
  · have hslash : char ≠ '\\' := fun heq => hself (Or.inr heq)
    rw [List.singleton_append, readEscaped]
    all_goals simp [hslash]
  · exact readEscaped_codeEscape char rest

/-- No character is written like the quote. -/
theorem escaped_cons (char : Char) :
    ∃ head tail, escaped printable quote char = head :: tail ∧ head ≠ quote := by
  have hslash : '\\' ≠ quote := by rcases hquote with rfl | rfl <;> decide
  rw [escaped]
  split_ifs with hself
  · exact ⟨_, _, rfl, hslash⟩
  · exact ⟨_, _, rfl, hslash⟩
  · exact ⟨_, _, rfl, hslash⟩
  · exact ⟨_, _, rfl, hslash⟩
  · exact ⟨_, _, rfl, fun heq => hself (Or.inl heq)⟩
  · obtain ⟨tail, hcode⟩ := codeEscape_cons char
    exact ⟨_, tail, hcode, hslash⟩

/-- The first quote that was not escaped ends a text. -/
theorem escaped_ends {one other rest more : List Char}
    (hsame : one.flatMap (escaped printable quote) ++ quote :: rest =
      other.flatMap (escaped printable quote) ++ quote :: more) : one = other ∧ rest = more := by
  induction one generalizing other with
  | nil =>
      cases other with
      | nil => exact ⟨rfl, List.tail_eq_of_cons_eq hsame⟩
      | cons char other =>
          obtain ⟨head, tail, hwritten, hhead⟩ := escaped_cons hquote printable char
          rw [List.flatMap_cons, hwritten] at hsame
          exact absurd (List.head_eq_of_cons_eq hsame).symm hhead
  | cons char one ih =>
      cases other with
      | nil =>
          obtain ⟨head, tail, hwritten, hhead⟩ := escaped_cons hquote printable char
          rw [List.flatMap_cons, hwritten] at hsame
          exact absurd (List.head_eq_of_cons_eq hsame) hhead
      | cons char' other =>
          rw [List.flatMap_cons, List.flatMap_cons, List.append_assoc, List.append_assoc] at hsame
          have hread := congrArg readEscaped hsame
          rw [readEscaped_escaped hquote, readEscaped_escaped hquote, Option.some.injEq,
            Prod.mk.injEq] at hread
          obtain ⟨rfl, hrest⟩ := hread
          obtain ⟨rfl, hmore⟩ := ih hrest
          exact ⟨rfl, hmore⟩

end Quoted

theorem quoteFor_eq (text : List Char) : quoteFor text = '\'' ∨ quoteFor text = '"' := by
  rw [quoteFor]
  split
  next => exact Or.inr rfl
  next => exact Or.inl rfl

theorem quotedChars_ends (text : List Char) : EndsItself quotedChars text := by
  intro other rest more hsame
  -- both texts are between the same quotes, since they begin with one
  simp only [quotedChars, List.cons_append, List.append_assoc, List.nil_append] at hsame
  have hquote := List.head_eq_of_cons_eq hsame
  have hbody := List.tail_eq_of_cons_eq hsame
  rw [← hquote] at hbody
  exact escaped_ends (quoteFor_eq text) isPrintable hbody

/-! ## Whole numbers -/

/-- Whether a character can be part of a whole number. -/
def isNumeral (char : Char) : Bool := char.isDigit || char == '-'

/-- The characters of a whole number. -/
def numeral (number : Int) : List Char := (toString number).toList

theorem ofList_numeral (number : Int) : String.ofList (numeral number) = toString number :=
  String.ofList_toList

theorem toList_repr (number : Nat) : number.repr.toList = Nat.toDigits 10 number := by
  rw [Nat.repr_eq_ofList_toDigits, String.toList_ofList]

theorem isNumeral_of_mem_repr {number : Nat} {char : Char} (hmem : char ∈ number.repr.toList) :
    isNumeral char = true := by
  rw [toList_repr] at hmem
  rw [isNumeral, Nat.isDigit_of_mem_toDigits (by decide) (by decide) hmem, Bool.true_or]

theorem isNumeral_of_mem {number : Int} : ∀ char ∈ numeral number, isNumeral char = true := by
  intro char hmem
  change char ∈ number.repr.toList at hmem
  rw [Int.repr_eq_if] at hmem
  split at hmem
  next => exact isNumeral_of_mem_repr hmem
  next =>
    rw [String.toList_append, List.mem_append] at hmem
    rcases hmem with hsign | hdigits
    · have hminus : char = '-' := by simpa using hsign
      rw [hminus]
      rfl
    · exact isNumeral_of_mem_repr hdigits

/-- The whole number that is written. -/
def readNumeral : List Char → Int
  | '-' :: digits => -Nat.ofDigitChars 10 digits 0
  | digits => Nat.ofDigitChars 10 digits 0

theorem readNumeral_repr (number : Nat) : readNumeral number.repr.toList = number := by
  rw [toList_repr, readNumeral]
  · rw [Nat.ofDigitChars_ten_toDigits]
  · intro digits hminus
    have hdigit := Nat.isDigit_of_mem_toDigits (by decide) (by decide)
      (hminus ▸ List.mem_cons_self : '-' ∈ Nat.toDigits 10 number)
    exact absurd hdigit (by decide)

theorem readNumeral_numeral (number : Int) : readNumeral (numeral number) = number := by
  change readNumeral number.repr.toList = number
  rw [Int.repr_eq_if]
  split
  next hsign => rw [readNumeral_repr, Int.toNat_of_nonneg hsign]
  next hsign =>
    rw [String.toList_append, toList_repr]
    change -(Nat.ofDigitChars 10 (Nat.toDigits 10 (-number).toNat) 0 : Int) = number
    rw [Nat.ofDigitChars_ten_toDigits]
    omega

/-- A whole number ends where something stands that is no part of one. -/
theorem numeral_ends {one other : Int} {behind rest more : List Char}
    (hsame : numeral one ++ (behind ++ rest) = numeral other ++ (behind ++ more))
    (hbehind : behind.head?.map isNumeral = some false) : one = other ∧ rest = more := by
  have htake (number : Int) (rest : List Char) :
      (numeral number ++ (behind ++ rest)).takeWhile isNumeral = numeral number := by
    rw [List.takeWhile_append_of_pos isNumeral_of_mem]
    cases behind with
    | nil => cases hbehind
    | cons stop behind =>
        have hstop : isNumeral stop = false := Option.some.inj hbehind
        rw [List.cons_append, List.takeWhile_cons_of_neg (by simp [hstop]), List.append_nil]
  have hnumerals : numeral one = numeral other := by rw [← htake one rest, hsame, htake]
  have hnumber : one = other := by rw [← readNumeral_numeral one, hnumerals, readNumeral_numeral]
  rw [hnumerals] at hsame
  exact ⟨hnumber, List.append_cancel_left (List.append_cancel_left hsame)⟩

/-! ## Lists -/

section Listed

variable {α : Type} {write : α → List Char}

/-- Things in brackets, with commas between them. -/
def listed (write : α → List Char) (items : List α) : List Char :=
  '[' :: ((fixed ", ").intercalate (items.map write) ++ [']'])

/-- What stands behind an item of a list: the other items, each after a comma, and the bracket. -/
def listedOn (write : α → List Char) : List α → List Char
  | [] => [']']
  | item :: rest => ',' :: ' ' :: (write item ++ listedOn write rest)

theorem listed_cons (item : α) (items : List α) :
    listed write (item :: items) = '[' :: (write item ++ listedOn write items) := by
  have hjoined : ∀ (items : List α) (item : α),
      (fixed ", ").intercalate ((item :: items).map write) ++ [']'] =
        write item ++ listedOn write items := by
    intro items
    induction items with
    | nil => intro item; simp [listedOn]
    | cons next items ih =>
        intro item
        rw [List.map_cons, List.map_cons, List.intercalate_cons_cons, List.append_assoc,
          ← List.map_cons, ih next]
        simp [listedOn, fixed]
  rw [listed, hjoined]

theorem listedOn_ends {ones others : List α} (hends : ∀ one ∈ ones, EndsItself write one)
    {rest more : List Char}
    (hsame : listedOn write ones ++ rest = listedOn write others ++ more) :
    ones = others ∧ rest = more := by
  induction ones generalizing others with
  | nil =>
      cases others with
      | nil => exact ⟨rfl, List.append_cancel_left hsame⟩
      | cons => simp [listedOn] at hsame
  | cons one ones ih =>
      cases others with
      | nil => simp [listedOn] at hsame
      | cons other others =>
          simp only [listedOn, List.cons_append, List.append_assoc, List.cons.injEq,
            true_and] at hsame
          obtain ⟨rfl, hon⟩ := hends one List.mem_cons_self _ _ _ hsame
          obtain ⟨rfl, hmore⟩ := ih (fun one hmem => hends one (List.mem_cons_of_mem _ hmem)) hon
          exact ⟨rfl, hmore⟩

/-- A list ends itself if its items do and none of them begins like the end of a list. -/
theorem listed_ends {ones : List α} (hends : ∀ one ∈ ones, EndsItself write one)
    (hopen : ∀ item, ∃ head tail, write item = head :: tail ∧ head ≠ ']') :
    EndsItself (listed write) ones := by
  intro others rest more hsame
  cases ones with
  | nil =>
      cases others with
      | nil => exact ⟨rfl, List.append_cancel_left hsame⟩
      | cons other others =>
          obtain ⟨head, tail, hwritten, hhead⟩ := hopen other
          rw [listed_cons, hwritten] at hsame
          exact absurd (List.head_eq_of_cons_eq (List.tail_eq_of_cons_eq hsame)).symm hhead
  | cons one ones =>
      cases others with
      | nil =>
          obtain ⟨head, tail, hwritten, hhead⟩ := hopen one
          rw [listed_cons, hwritten] at hsame
          exact absurd (List.head_eq_of_cons_eq (List.tail_eq_of_cons_eq hsame)) hhead
      | cons other others =>
          simp only [listed_cons, List.cons_append, List.append_assoc, List.cons.injEq,
            true_and] at hsame
          obtain ⟨rfl, hon⟩ := hends one List.mem_cons_self _ _ _ hsame
          obtain ⟨rfl, hmore⟩ :=
            listedOn_ends (fun one hmem => hends one (List.mem_cons_of_mem _ hmem)) hon
          exact ⟨rfl, hmore⟩

end Listed

end Rulebook.Text
