import Mathlib.Data.Bool.AllAny
import LazyTensor.Proofs.Kernel.Tokens

/-! The lexical elements of C expressions. Other than the tokens that tell blocks and names, they
keep numbers whole, with the point and the sign of an exponent, and texts between quotes. An element
takes all characters that it can. Brackets, commas, semicolons and blanks are taken by none, so text
is read piece by piece between them.
-/

namespace LazyTensor.Code

-----------------------------------------------------------------------------------------
-- Separators
-----------------------------------------------------------------------------------------

/-- The characters that are elements of their own wherever they stand outside of quotes. -/
def separators : List Char := [' ', '\n', '(', ')', '[', ']', '\x7b', '\x7d', ',', ';']

variable {char : Char}

/-- No mark goes on with a separator, and none goes on from one. -/
theorem not_joins_separator (separator : char ∈ separators) (other : Char)
    : joins other char = false ∧ joins char other = false := by
  have apart
      : ∀ char ∈ separators,
          char ∉ ['+', '-', '<', '>', '&', '|', '='] ∧ char ∉ ['*', '%', '^', '!']
            ∧ char ∉ ['/', '*', '='] ∧ char ≠ '/' ∧ char ≠ '=' ∧ char ≠ '>' :=
    List.all_iff_forall_prop.mp (by decide)
  have others := apart char separator
  constructor
  · rw [joins]
    split
    · next member =>
        have doubled : char ≠ other := (ne_of_mem_of_not_mem member others.1).symm
        simp [doubled, others]
    · simp [others]
  · simp [joins, others]

/-- No element goes on with a separator, other than a text between quotes. -/
theorem not_takes_separator (separator : char ∈ separators) {lexeme : Lexeme}
    (unquoted : lexeme.kind ≠ .quoted)
    : ¬lexeme.takes char = true := by
  have other : ∀ char ∈ separators, isWordChar char = false ∧ char ≠ '.' ∧ char ∉ ['+', '-'] :=
    List.all_iff_forall_prop.mp (by decide)
  obtain ⟨word, point, sign⟩ := other char separator
  obtain ⟨kind, chars⟩ := lexeme
  cases kind with
  | blank => exact Bool.false_ne_true
  | name => exact Bool.not_eq_true _ ▸ word
  | number => simp [Lexeme.takes, word, point, sign]
  | quoted => exact absurd rfl unquoted
  | mark =>
      cases chars with
      | nil => exact Bool.false_ne_true
      | cons first rest => simp [Lexeme.takes, (not_joins_separator separator first).1]

/-- A separator is an element of one character. -/
theorem elements_separator (separator : char ∈ separators) (rest : List Char)
    : elements (char :: rest) = Lexeme.start char :: elements rest := by
  have kinds
      : ∀ char ∈ separators,
          (Lexeme.start char).kind = .blank ∨ (Lexeme.start char).kind = .mark :=
    List.all_iff_forall_prop.mp (by decide)
  cases rest with
  | nil => rfl
  | cons next rest =>
      have ends : ¬(Lexeme.start char).takes next = true := by
        rcases kinds char separator with blank | mark
        · rw [Lexeme.takes, blank]
          exact Bool.false_ne_true
        · rw [Lexeme.takes, mark]
          simp [Lexeme.start, (not_joins_separator separator next).2]
      rw [elements, Lexeme.scan, if_neg ends]
      rfl

/-- Only a quote opens a text between quotes. -/
theorem Lexeme.start_unquoted (other : char ≠ '\"') : (start char).kind ≠ .quoted := by
  simp only [start, if_neg other]
  split_ifs
  all_goals decide

/-- Text before a separator is read for itself, by induction on it. -/
theorem Lexeme.scan_separator (separator : char ∈ separators) {before : List Char}
    (plain : '\"' ∉ before) (lexeme : Lexeme) (unquoted : lexeme.kind ≠ .quoted)
    (rest : List Char)
    : lexeme.scan (before ++ char :: rest)
      = lexeme.scan before ++ Lexeme.start char :: elements rest := by
  induction before generalizing lexeme with
  | nil =>
      rw [← elements_separator separator]
      exact if_neg (not_takes_separator separator unquoted)
  | cons first before ih =>
      rw [List.mem_cons, not_or] at plain
      rw [List.cons_append, scan, scan]
      split
      · exact ih plain.2 _ unquoted
      · rw [ih plain.2 _ (start_unquoted (Ne.symm plain.1))]
        rfl

/-- The elements on both sides of a separator. -/
theorem elements_append (separator : char ∈ separators) {before : List Char}
    (plain : '\"' ∉ before) (rest : List Char)
    : elements (before ++ char :: rest)
      = elements before ++ Lexeme.start char :: elements rest := by
  cases before with
  | nil => exact elements_separator separator rest
  | cons first before =>
      rw [List.mem_cons, not_or] at plain
      exact Lexeme.scan_separator separator plain.2 _
        (Lexeme.start_unquoted (Ne.symm plain.1)) rest

/-- The elements with a meaning on both sides of a separator. -/
theorem lexemes_append (separator : char ∈ separators) {before : List Char}
    (plain : '\"' ∉ before) (rest : List Char)
    : lexemes (before ++ char :: rest) = lexemes before ++ lexemes [char] ++ lexemes rest := by
  have single : elements [char] = [Lexeme.start char] := rfl
  rw [lexemes, elements_append separator plain, lexemes, lexemes, lexemes, single,
    ← List.filter_append, ← List.filter_append, List.append_assoc]
  rfl

-----------------------------------------------------------------------------------------
-- Words
-----------------------------------------------------------------------------------------

/-- An element takes characters that it goes on with in any case, by induction on them. -/
theorem Lexeme.scan_append {kind : Kind} {chars : List Char}
    (taken : ∀ char ∈ chars, ∀ front, Lexeme.takes ⟨kind, front⟩ char = true)
    (front rest : List Char)
    : Lexeme.scan ⟨kind, front⟩ (chars ++ rest) = Lexeme.scan ⟨kind, front ++ chars⟩ rest := by
  induction chars generalizing front with
  | nil => rw [List.nil_append, List.append_nil]
  | cons char chars ih =>
      rw [List.forall_mem_cons] at taken
      rw [List.cons_append, scan, if_pos (taken.1 front), ih taken.2, List.append_assoc]
      rfl

/-- The element that a character of words starts. -/
theorem Lexeme.start_word (word : isWordChar char = true)
    : start char = ⟨if char.isDigit then .number else .name, [char]⟩ := by
  have visible : ¬(char = ' ' ∨ char = '\n') := by
    rintro (rfl | rfl)
    · exact absurd word (by decide)
    · exact absurd word (by decide)
  simp only [start, if_neg visible, if_pos word]

/-- Numbers and names go on with characters of words. -/
theorem Lexeme.takes_word (digit : Bool) (word : isWordChar char = true) (front : List Char)
    : Lexeme.takes ⟨if digit then .number else .name, front⟩ char = true := by
  cases digit
  · exact word
  · simp [takes, word]

/-- A word is one element: a number if it starts with a digit, and a name otherwise. -/
theorem lexemes_word {first : Char} {rest : List Char}
    (all : (first :: rest).all isWordChar = true)
    : lexemes (first :: rest)
      = [⟨if first.isDigit then .number else .name, first :: rest⟩] := by
  rw [List.all_cons, Bool.and_eq_true, List.all_eq_true] at all
  have whole
      := Lexeme.scan_append
          (fun char member => Lexeme.takes_word first.isDigit (all.2 char member)) [first] []
  rw [List.append_nil] at whole
  rw [lexemes, elements, Lexeme.start_word all.1, whole]
  cases first.isDigit
  · rfl
  · rfl

/-- Words have no quotes. -/
theorem quote_notMem {chars : List Char} (all : chars.all isWordChar = true) : '\"' ∉ chars := by
  intro member
  exact absurd (List.all_eq_true.mp all _ member) (by decide)

-----------------------------------------------------------------------------------------
-- Numbers
-----------------------------------------------------------------------------------------

/-- The characters that every number goes on with. -/
def isNumberChar (char : Char) : Bool := isWordChar char || char == '.'

theorem isNumberChar_of_isDigit (digit : char.isDigit = true) : isNumberChar char = true := by
  rw [isNumberChar, isWordChar_of_isDigit digit, Bool.true_or]

theorem Lexeme.start_digit (digit : char.isDigit = true) : start char = ⟨.number, [char]⟩ := by
  rw [start_word (isWordChar_of_isDigit digit), if_pos digit]

/-- A number takes characters of numbers. -/
theorem Lexeme.scan_number {chars : List Char} (all : ∀ char ∈ chars, isNumberChar char = true)
    (front rest : List Char)
    : Lexeme.scan ⟨.number, front⟩ (chars ++ rest)
      = Lexeme.scan ⟨.number, front ++ chars⟩ rest := by
  refine scan_append (fun char member front => ?_) front rest
  rw [takes]
  have taken := all char member
  rw [isNumberChar] at taken
  simp only [taken, Bool.true_or]

-----------------------------------------------------------------------------------------
-- Pieces
-----------------------------------------------------------------------------------------

/-- Characters are read as some elements, whatever follows behind a separator. -/
structure Lexes (chars : List Char) (list : List Lexeme) : Prop where
  lexemes_eq : lexemes chars = list
  lexemes_append
    : ∀ separator ∈ separators, ∀ rest,
        lexemes (chars ++ separator :: rest) = list ++ lexemes (separator :: rest)

variable {chars more : List Char} {list others : List Lexeme}

/-- Outside of quotes text is read for itself before a separator. -/
theorem lexes_of_unquoted (plain : '\"' ∉ chars) (lexed : lexemes chars = list)
    : Lexes chars list where
  lexemes_eq := lexed
  lexemes_append separator member rest := by
    have behind := lexemes_append member List.not_mem_nil rest
    rw [List.nil_append] at behind
    rw [lexemes_append member plain, lexed, behind, List.append_assoc]
    rfl

/-- Two pieces with a separator between them. -/
theorem Lexes.append (first : Lexes chars list) {separator : Char}
    (member : separator ∈ separators) (second : Lexes more others)
    : Lexes (chars ++ separator :: more) (list ++ lexemes [separator] ++ others) := by
  have behind (rest : List Char)
      : lexemes (separator :: rest) = lexemes [separator] ++ lexemes rest :=
    Code.lexemes_append member List.not_mem_nil rest
  constructor
  · rw [first.lexemes_append separator member, behind, second.lexemes_eq, List.append_assoc]
  · intro other known rest
    rw [List.append_assoc, List.cons_append, first.lexemes_append separator member, behind,
      second.lexemes_append other known, List.append_assoc, List.append_assoc]

theorem lexes_nil : Lexes [] [] := lexes_of_unquoted List.not_mem_nil rfl

/-- Two pieces with a blank between them. -/
theorem Lexes.spaced (first : Lexes chars list) (second : Lexes more others)
    : Lexes (chars ++ ' ' :: more) (list ++ others) := by
  simpa only [show lexemes [' '] = [] from rfl, List.append_nil] using
    first.append (by decide : ' ' ∈ separators) second

/-- A piece behind a separator. -/
theorem Lexes.behind {separator : Char} (member : separator ∈ separators)
    (second : Lexes more others)
    : Lexes (separator :: more) (lexemes [separator] ++ others) := by
  simpa using lexes_nil.append member second

/-- Blanks in front of a piece do not matter, by induction on their number. -/
theorem Lexes.indented (piece : Lexes chars list) (count : Nat)
    : Lexes (List.replicate count ' ' ++ chars) list := by
  induction count with
  | zero => exact piece
  | succ count ih => exact lexes_nil.spaced ih

/-- Only a second minus, an equals sign and the end of an arrow go on with a minus. -/
theorem Lexes.negated {first : Char} (piece : Lexes (first :: chars) list)
    (apart : first ∉ ['-', '=', '>'])
    : Lexes ('-' :: first :: chars) (mark '-' :: list) := by
  have single (rest : List Char)
      : lexemes ('-' :: first :: rest) = mark '-' :: lexemes (first :: rest) := by
    have ends : ¬(Lexeme.start '-').takes first = true := by
      change ¬joins '-' first = true
      simp only [List.mem_cons, List.not_mem_nil, or_false, not_or] at apart
      simp [joins, apart]
    rw [lexemes, elements, Lexeme.scan, if_neg ends]
    rfl
  constructor
  · rw [single, piece.lexemes_eq]
  · intro separator member rest
    have whole := piece.lexemes_append separator member rest
    rw [List.cons_append] at whole
    rw [List.cons_append, List.cons_append, single, whole]
    rfl

/-- A word is one piece. -/
theorem lexes_word {first : Char} {rest : List Char} (all : (first :: rest).all isWordChar = true)
    : Lexes (first :: rest)
        [⟨if first.isDigit then .number else .name, first :: rest⟩] :=
  lexes_of_unquoted (quote_notMem all) (lexemes_word all)

/-- A name with the mark behind it that counts it up. -/
theorem lexes_counted {first : Char} {rest : List Char}
    (all : (first :: rest).all isWordChar = true) (letter : first.isDigit = false)
    : Lexes (first :: rest ++ ['+', '+'])
        [⟨.name, first :: rest⟩, ⟨.mark, ['+', '+']⟩] := by
  have unquoted : '\"' ∉ first :: rest ++ ['+', '+'] := by
    rw [List.mem_append, not_or]
    exact ⟨quote_notMem all, by decide⟩
  refine lexes_of_unquoted unquoted ?_
  rw [List.all_cons, Bool.and_eq_true, List.all_eq_true] at all
  have taken
      := Lexeme.scan_append
          (fun char member => Lexeme.takes_word first.isDigit (all.2 char member)) [first] ['+', '+']
  rw [letter, if_neg Bool.false_ne_true] at taken
  rw [lexemes, List.cons_append, elements, Lexeme.start_word all.1, letter,
    if_neg Bool.false_ne_true, taken]
  rfl

-----------------------------------------------------------------------------------------
-- Lines
-----------------------------------------------------------------------------------------

/-- The characters of lines with their ends. -/
def ended (lines : List String) : List Char := lines.flatMap fun line => line.toList ++ ['\n']

/-- Lines are read as some elements, whatever lines follow. -/
def LexesLines (lines : List String) (list : List Lexeme) : Prop :=
  ∀ rest, lexemes (ended lines ++ rest) = list ++ lexemes rest

theorem lexesLines_nil : LexesLines [] [] := fun _ => rfl

variable {lines after : List String}

theorem LexesLines.append (first : LexesLines lines list) (second : LexesLines after others)
    : LexesLines (lines ++ after) (list ++ others) := by
  intro rest
  rw [ended, List.flatMap_append, List.append_assoc, ← ended, ← ended, first, second,
    List.append_assoc]

/-- A piece that is a line of its own. -/
theorem Lexes.line {line : String} (piece : Lexes line.toList list) : LexesLines [line] list := by
  intro rest
  have member : '\n' ∈ separators := by decide
  have behind := Code.lexemes_append member List.not_mem_nil rest
  rw [List.nil_append, show lexemes [] = [] from rfl, show lexemes ['\n'] = [] from rfl,
    List.nil_append, List.nil_append] at behind
  rw [← behind, ← piece.lexemes_append '\n' member rest]
  simp [ended]

/-- The text of lines whose last one is empty. -/
theorem toList_intercalate_ended (lines : List String)
    : ("\n".intercalate (lines ++ [""])).toList = ended lines := by
  induction lines with
  | nil => rfl
  | cons line rest ih =>
      obtain ⟨next, others, same⟩ : ∃ next others, rest ++ [""] = next :: others :=
        List.exists_cons_of_ne_nil (by simp)
      rw [List.cons_append, same, String.intercalate_cons_cons, ← same, String.toList_append, ih,
        String.toList_append]
      rfl

-----------------------------------------------------------------------------------------
-- Numbers as pieces
-----------------------------------------------------------------------------------------

/-- Numbers have no quotes. -/
theorem quote_notMem_number {rest : List Char} (digit : char.isDigit = true)
    (all : ∀ char ∈ rest, isNumberChar char = true)
    : '\"' ∉ char :: rest := by
  have each : ∀ other ∈ char :: rest, isNumberChar other = true :=
    List.forall_mem_cons.mpr ⟨isNumberChar_of_isDigit digit, all⟩
  exact fun member => absurd (each _ member) (by decide)

/-- A number without the sign of an exponent is one piece. -/
theorem lexes_number (digit : char.isDigit = true) {rest : List Char}
    (all : ∀ char ∈ rest, isNumberChar char = true)
    : Lexes (char :: rest) [⟨.number, char :: rest⟩] := by
  have whole := Lexeme.scan_number all [char] []
  rw [List.append_nil] at whole
  refine lexes_of_unquoted (quote_notMem_number digit all) ?_
  rw [lexemes, elements, Lexeme.start_digit digit, whole]
  rfl

/-- A number with a negative exponent is one piece. -/
theorem lexes_negativeExponent (digit : char.isDigit = true) {front power : List Char}
    (all : ∀ char ∈ front, isNumberChar char = true)
    (others : ∀ char ∈ power, isNumberChar char = true)
    : Lexes (char :: (front ++ 'e' :: '-' :: power))
        [⟨.number, char :: (front ++ 'e' :: '-' :: power)⟩] := by
  have letter : isNumberChar 'e' = true := by decide
  have marked := List.forall_mem_append.mpr ⟨all, List.forall_mem_singleton.mpr letter⟩
  have signed : Lexeme.takes ⟨.number, [char] ++ (front ++ ['e'])⟩ '-' = true := by
    rw [Lexeme.takes, ← List.append_assoc, List.getLast?_append]
    rfl
  have whole := Lexeme.scan_number others ([char] ++ (front ++ ['e']) ++ ['-']) []
  rw [List.append_nil] at whole
  have split : front ++ 'e' :: '-' :: power = front ++ ['e'] ++ '-' :: power := by simp
  refine lexes_of_unquoted ?_ ?_
  · have before := quote_notMem_number digit all
    have behind := quote_notMem_number digit others
    simp only [List.mem_cons, not_or] at before behind
    simp [before, behind]
  · rw [lexemes, elements, Lexeme.start_digit digit, split, Lexeme.scan_number marked, Lexeme.scan,
      if_pos signed, whole]
    simp [Lexeme.scan]

/-- A number with an exponent is one piece. -/
theorem lexes_exponent (digit : char.isDigit = true) {front suffix : List Char}
    (all : ∀ char ∈ front, isNumberChar char = true)
    (others : ∀ char ∈ suffix, isNumberChar char = true) (power : Int)
    : Lexes (char :: (front ++ 'e' :: (power.repr.toList ++ suffix)))
        [⟨.number, char :: (front ++ 'e' :: (power.repr.toList ++ suffix))⟩] := by
  have digits (number : Nat)
      : ∀ char ∈ Nat.toDigits 10 number ++ suffix, isNumberChar char = true := by
    rw [List.forall_mem_append]
    exact ⟨fun char member => isNumberChar_of_isDigit (Text.isDigit_toDigits number char member),
      others⟩
  cases power with
  | ofNat number =>
      rw [Int.repr, Nat.toList_repr]
      refine lexes_number digit ?_
      rw [List.forall_mem_append, List.forall_mem_cons]
      exact ⟨all, by decide, digits number⟩
  | negSucc number =>
      rw [Int.repr, String.toList_append, Nat.toList_repr]
      exact lexes_negativeExponent digit all (digits (number + 1))

end LazyTensor.Code
