import LazyTensor.Code.Expressions

/-! C functions on unsigned words. A definition has parameters and a body of assignments, to a new
variable or to one that is there, up to the statement that returns the result. All of them are
unsigned words.
-/

namespace LazyTensor.Code

/-- Statements of a function. -/
inductive Statement where
  | assign (name : List Char) (value : Expression)
  | yield (value : Expression)
deriving DecidableEq, Repr

/-- The definition of a function. -/
structure Definition where
  name : List Char
  parameters : List (List Char)
  body : List Statement
deriving DecidableEq, Repr

/-- The parameters up to the closing parenthesis, and what follows. -/
def readParameters : (fuel : Nat) → List Lexeme → Option (List (List Char) × List Lexeme)
  | 0, _ => none
  | fuel + 1, input => do
      match ← CType.unsigned.words.isPrefixOf? input with
      | ⟨.name, name⟩ :: ⟨.mark, [',']⟩ :: rest =>
          let (others, rest) ← readParameters fuel rest
          some (name :: others, rest)
      | ⟨.name, name⟩ :: ⟨.mark, [')']⟩ :: rest => some ([name], rest)
      | _ => none

/-- What a statement does with the value of its expression, and what follows. -/
def readTarget (input : List Lexeme) : Option ((Expression → Statement) × List Lexeme) :=
  match [word "return"].isPrefixOf? input with
  | some rest => some (.yield, rest)
  | none =>
      match (CType.unsigned.words.isPrefixOf? input).getD input with
      | ⟨.name, name⟩ :: ⟨.mark, ['=']⟩ :: rest => some (.assign name, rest)
      | _ => none

/-- The statements up to the closing brace, and what follows. -/
def readStatements : (fuel : Nat) → List Lexeme → Option (List Statement × List Lexeme)
  | 0, _ => none
  | _ + 1, ⟨.mark, ['\x7d']⟩ :: rest => some ([], rest)
  | fuel + 1, input => do
      let (statement, rest) ← readTarget input
      let (value, rest) ← readExpression fuel 0 rest
      let rest ← [mark ';'].isPrefixOf? rest
      let (others, rest) ← readStatements fuel rest
      some (statement value :: others, rest)

/-- The definition of a function and what follows it. -/
def readDefinition (input : List Lexeme) : Option (Definition × List Lexeme) := do
  match ← (word "static" :: word "inline" :: CType.unsigned.words).isPrefixOf? input with
  | ⟨.name, name⟩ :: ⟨.mark, ['(']⟩ :: rest =>
      match ← readParameters input.length rest with
      | (parameters, ⟨.mark, ['\x7b']⟩ :: rest) =>
          let (body, rest) ← readStatements (fuelFor input) rest
          some (⟨name, parameters, body⟩, rest)
      | _ => none
  | _ => none

/-- The function that all characters of a text define. -/
def Definition.read (chars : List Char) : Option Definition :=
  match readDefinition (lexemes chars) with
  | some (definition, []) => some definition
  | _ => none

end LazyTensor.Code
