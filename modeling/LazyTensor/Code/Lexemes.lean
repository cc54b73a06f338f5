/-! The lexical elements of C text. Names and numbers are kept whole, a number with its point and the
sign of its exponent, and so are texts between quotes. An element takes all characters that it can.
-/

namespace LazyTensor.Code

/-- Whether a character may be part of a name. -/
def isWordChar (char : Char) : Bool := char.isAlphanum || char == '_'

/-- What a lexical element is. -/
inductive Kind where
  | blank
  | name
  | number
  /-- A text between quotes, in which nothing is escaped. -/
  | quoted
  | mark
deriving DecidableEq, Repr

/-- A lexical element with its characters. -/
structure Lexeme where
  kind : Kind
  chars : List Char
deriving DecidableEq, Repr

/-- Whether two characters are one mark. -/
def joins (first second : Char) : Bool :=
  if first ∈ ['+', '-', '<', '>', '&', '|', '='] then
    second == first || second == '=' || (first == '-' && second == '>')
  else if first = '/' then second ∈ ['/', '*', '=']
  else first ∈ ['*', '%', '^', '!'] && second == '='

namespace Lexeme

/-- The element that a character starts. -/
def start (char : Char) : Lexeme :=
  let kind :=
    if char = ' ' ∨ char = '\n' then .blank
    else if char.isDigit then .number
    else if isWordChar char then .name
    else if char = '\"' then .quoted
    else .mark
  ⟨kind, [char]⟩

/-- Whether an element goes on with a character. A sign goes on with a number behind the letter of
an exponent only.
-/
def takes (lexeme : Lexeme) (char : Char) : Bool :=
  match lexeme.kind with
  | .blank => false
  | .name => isWordChar char
  | .number =>
      isWordChar char || char == '.'
        || (char ∈ ['+', '-'] && lexeme.chars.getLast?.any (· ∈ ['e', 'E', 'p', 'P']))
  | .quoted => lexeme.chars.length == 1 || lexeme.chars.getLast? != some '\"'
  | .mark => lexeme.chars.length == 1 && lexeme.chars.head?.any (joins · char)

/-- The elements of characters behind the first ones of an element. -/
def scan : Lexeme → List Char → List Lexeme
  | lexeme, [] => [lexeme]
  | lexeme, char :: rest =>
      if lexeme.takes char then
        scan ⟨lexeme.kind, lexeme.chars ++ [char]⟩ rest
      else
        lexeme :: scan (start char) rest

end Lexeme

/-- The elements of characters, blanks among them. -/
def elements : List Char → List Lexeme
  | [] => []
  | char :: rest => (Lexeme.start char).scan rest

/-- The elements of characters that have a meaning. -/
def lexemes (chars : List Char) : List Lexeme := (elements chars).filter (·.kind != .blank)

/-- The element of a word. -/
def word (text : String) : Lexeme := ⟨.name, text.toList⟩

/-- The element of a mark of one character. -/
def mark (char : Char) : Lexeme := ⟨.mark, [char]⟩

end LazyTensor.Code
