import LazyTensor.Code.Lexemes
import LazyTensor.Kernel.Writer
import LazyTensor.Proofs.Text.Separated

/-! Tokens of C text. Letters, digits and underscores in a row are one word, and any other character
that is not blank is a mark. What a preprocessor takes away and what stands within quotes is no code.
Text is put together from pieces, and so are its tokens: a line ends every word, and so does a piece
that starts with a mark or a blank.
-/

namespace LazyTensor.Code

/-- The parts of C text from which its blocks and its names are told. -/
inductive Token where
  /-- A name, a keyword or a part of a number. -/
  | word (text : String)
  | mark (char : Char)
  /-- The start of a comment. -/
  | comment
deriving DecidableEq, Repr

/-- What a character is read as. -/
inductive Mode where
  | code
  /-- Part of a directive, which ends with its line. -/
  | directive
  /-- Part of a text within quotes, in which nothing is escaped. -/
  | quoted

theorem isWordChar_of_isDigit {char : Char} (digit : char.isDigit = true)
    : isWordChar char = true := by
  simp [isWordChar, Char.isAlphanum, digit]

/-- A text is one word: it has characters, and only such. -/
structure IsWord (text : String) : Prop where
  nonempty : text ≠ ""
  all : text.toList.all isWordChar = true

/-- A text can be the name of a function: a letter, then letters, digits and underscores. -/
def IsIdentifier (text : String) : Prop :=
  ∃ first rest,
    text.toList = first :: rest
    ∧ first.isAlpha = true
    ∧ rest.all isWordChar = true

theorem IsIdentifier.isWord {text : String} (identifier : IsIdentifier text) : IsWord text := by
  obtain ⟨first, rest, same, letter, all⟩ := identifier
  refine ⟨?_, ?_⟩
  · rintro rfl
    cases same
  · rw [same, List.all_cons, all, Bool.and_true]
    simp [isWordChar, Char.isAlphanum, letter]

/-- Letters and digits make a word longer. -/
theorem IsWord.append {text other : String} (word : IsWord text)
    (all : other.toList.all isWordChar = true)
    : IsWord (text ++ other) where
  nonempty := by simp [word.nonempty]
  all := by rw [String.toList_append, List.all_append, word.all, all, Bool.and_true]

/-- The token of a word, which is none if the word has no characters. -/
def ofWord : List Char → List Token
  | [] => []
  | word => [.word (String.ofList word)]

/-- The token of a character that is part of no word, by the character behind it. Blanks, and what
starts a directive or a text within quotes, have none.
-/
def ofMark (char : Char) (next : Option Char) : List Token :=
  if char = ' ' ∨ char = '\n' ∨ char = '#' ∨ char = '\"' then []
  else if char = '/' ∧ (next = some '/' ∨ next = some '*') then [.comment]
  else [.mark char]

/-- What is read as what behind a character of code. -/
def modeAfter (char : Char) : Mode :=
  if char = '#' then .directive else if char = '\"' then .quoted else .code

/-- The tokens of characters behind the first ones of a word. -/
def scan : Mode → (word : List Char) → List Char → List Token
  | .code, word, [] => ofWord word
  | .code, word, char :: rest =>
      if isWordChar char then
        scan .code (word ++ [char]) rest
      else
        ofWord word ++ ofMark char rest.head? ++ scan (modeAfter char) [] rest
  | .directive, _, [] => []
  | .directive, _, char :: rest => scan (if char = '\n' then .code else .directive) [] rest
  | .quoted, _, [] => []
  | .quoted, _, char :: rest =>
      scan (if char = '\"' ∨ char = '\n' then .code else .quoted) [] rest

/-- The tokens of a text. -/
def tokens (text : String) : List Token := scan .code [] text.toList

-----------------------------------------------------------------------------------------
-- Lines
-----------------------------------------------------------------------------------------

/-- A line ends words, directives and quotes, by induction on the characters before its end. -/
theorem scan_newline (mode : Mode) (word line rest : List Char)
    : scan mode word (line ++ '\n' :: rest) = scan mode word line ++ scan .code [] rest := by
  induction line generalizing mode word with
  | nil =>
      cases mode with
      | code => exact congrArg (· ++ _) (List.append_nil _)
      | directive | quoted => rfl
  | cons char line ih =>
      cases mode with
      | directive | quoted => exact ih _ _
      | code =>
          have next
              : ofMark char (line ++ '\n' :: rest).head? = ofMark char line.head? := by
            cases line with
            | nil => simp [ofMark]
            | cons => rfl
          rw [List.cons_append, scan, scan, next, ih, ih, ← List.append_assoc]
          split
          · rfl
          · rfl

/-- The tokens of lines are those of each line, by induction on the lines. -/
theorem tokens_lines (lines : List String)
    : tokens ("\n".intercalate lines) = lines.flatMap tokens := by
  induction lines with
  | nil => rfl
  | cons line rest ih =>
      cases rest with
      | nil => simp
      | cons next others =>
          rw [String.intercalate_cons_cons, List.flatMap_cons, ← ih]
          have chars
              : (line ++ "\n" ++ "\n".intercalate (next :: others)).toList
                = line.toList ++ '\n' :: ("\n".intercalate (next :: others)).toList := by
            simp
          rw [tokens, chars, scan_newline]
          rfl

/-- Blanks in front of a line do not matter, by induction on their number. -/
theorem tokens_indent (depth : Nat) (text : String)
    : tokens (Kernel.Writer.indent depth ++ text) = tokens text := by
  have blanks (count : Nat) (chars : List Char)
      : scan .code [] (List.replicate count ' ' ++ chars) = scan .code [] chars := by
    induction count with
    | zero => rfl
    | succ count ih => exact ih
  rw [tokens, Kernel.Writer.indent, String.toList_append, String.toList_ofList, blanks, tokens]

-----------------------------------------------------------------------------------------
-- Pieces
-----------------------------------------------------------------------------------------

/-- No character follows that would be part of a word. -/
def Apart (chars : List Char) : Prop := ∀ char ∈ chars.head?, isWordChar char = false

/-- A text starts with a character that ends words. -/
def Parts (text : String) : Prop := ∃ char ∈ text.toList.head?, isWordChar char = false

/-- A text is read as some tokens, unless its last word goes on behind it. -/
def Spells (text : String) (list : List Token) : Prop :=
  ∀ rest, Apart rest → scan .code [] (text.toList ++ rest) = list ++ scan .code [] rest

/-- A text is read as some tokens, whatever follows. -/
def Seals (text : String) (list : List Token) : Prop :=
  ∀ rest, scan .code [] (text.toList ++ rest) = list ++ scan .code [] rest

variable {text other : String} {list more : List Token}

theorem Parts.append (parts : Parts text) (other : String) : Parts (text ++ other) := by
  obtain ⟨char, first, mark⟩ := parts
  refine ⟨char, ?_, mark⟩
  rw [String.toList_append, List.head?_append, first]
  rfl

theorem Parts.apart (parts : Parts text) (rest : List Char) : Apart (text.toList ++ rest) := by
  obtain ⟨char, first, mark⟩ := parts
  intro char' first'
  rw [List.head?_append, first] at first'
  exact Option.some.inj first' ▸ mark

theorem Spells.tokens_eq (spells : Spells text list) : tokens text = list := by
  have whole := spells [] (by simp [Apart])
  rwa [List.append_nil, show scan .code [] [] = [] from rfl, List.append_nil] at whole

theorem Seals.spells (seals : Seals text list) : Spells text list := fun rest _ => seals rest

/-- A text behind one that ends all words. -/
theorem Seals.append_spells (seals : Seals text list) (spells : Spells other more)
    : Spells (text ++ other) (list ++ more) := by
  intro rest apart
  rw [String.toList_append, List.append_assoc, seals, spells rest apart, List.append_assoc]

/-- A text that ends the last word of the one before it. -/
theorem Spells.append (spells : Spells text list) (seals : Seals other more)
    (parts : Parts other)
    : Seals (text ++ other) (list ++ more) := by
  intro rest
  rw [String.toList_append, List.append_assoc, spells _ (parts.apart rest), seals,
    List.append_assoc]

/-- Characters of words are taken into the word that they follow, by induction on them. -/
theorem scan_word {chars : List Char} (all : chars.all isWordChar = true)
    (word rest : List Char)
    : scan .code word (chars ++ rest) = scan .code (word ++ chars) rest := by
  induction chars generalizing word with
  | nil => simp
  | cons char chars ih =>
      rw [List.all_cons, Bool.and_eq_true] at all
      obtain ⟨first, others⟩ := all
      rw [List.cons_append, scan, if_pos first, ih others, List.append_assoc]
      rfl

/-- A word ends where no character follows that would be part of it. -/
theorem scan_apart {rest : List Char} (apart : Apart rest) (word : List Char)
    : scan .code word rest = ofWord word ++ scan .code [] rest := by
  cases rest with
  | nil => exact (List.append_nil _).symm
  | cons char rest =>
      have other : ¬isWordChar char = true := by simp [apart char rfl]
      rw [scan, scan, if_neg other, if_neg other, List.append_assoc, List.append_assoc]
      rfl

/-- A text of word characters is one word. -/
theorem spells_word (word : IsWord text) : Spells text [.word text] := by
  intro rest apart
  rw [scan_word word.all, List.nil_append, scan_apart apart]
  cases same : text.toList with
  | nil => exact absurd (String.toList_eq_nil_iff.mp same) word.nonempty
  | cons first others =>
      change Token.word (String.ofList (first :: others)) :: _ = _
      rw [← same, String.ofList_toList]
      rfl

end LazyTensor.Code
