import LazyTensor.Code.Lexemes
import LazyTensor.Code.Numerals

/-! Expressions of C. They are read by the strengths of their operators, with casts and signs before
the operands, calls with arguments and elements of arrays among them.
-/

namespace LazyTensor.Code

/-- Operators between two operands. -/
inductive Operator where
  | xor
  | shiftRight
  | add
  | sub
  | mul
  | div
deriving DecidableEq, Repr

/-- How strongly an operator binds. -/
def Operator.strength : Operator → Nat
  | xor => 1
  | shiftRight => 2
  | add | sub => 3
  | mul | div => 4

/-- How strongly operands are bound that have signs, casts, calls and parentheses only. -/
def Operator.tightest : Nat := 5

/-- The characters of an operator. -/
def Operator.chars : Operator → List Char
  | xor => ['^']
  | shiftRight => ['>', '>']
  | add => ['+']
  | sub => ['-']
  | mul => ['*']
  | div => ['/']

/-- The operator of a mark. -/
def Operator.ofMark? : List Char → Option Operator
  | ['^'] => some xor
  | ['>', '>'] => some shiftRight
  | ['+'] => some add
  | ['-'] => some sub
  | ['*'] => some mul
  | ['/'] => some div
  | _ => none

/-- The types that numbers are cast to. -/
inductive CType where
  | unsigned
  | floating (dtype : DType)
deriving DecidableEq, Repr

/-- The words of a type. -/
def CType.words : CType → List Lexeme
  | unsigned => [word "unsigned", word "long", word "long"]
  | floating dtype => [word dtype.cType]

/-- A type and what follows it. -/
def readType? (input : List Lexeme) : Option (CType × List Lexeme) :=
  [.unsigned, .floating .float32, .floating .float64].findSome? fun type : CType =>
    (type.words.isPrefixOf? input).map (type, ·)

mutual

/-- Expressions of C. -/
inductive Expression where
  | number (chars : List Char)
  | quoted (chars : List Char)
  | named (name : List Char)
  /-- An element of an array. -/
  | element (name : List Char) (index : Expression)
  | call (name : List Char) (arguments : Arguments)
  | negate (operand : Expression)
  | cast (type : CType) (operand : Expression)
  | binary (op : Operator) (left right : Expression)

/-- The arguments of a call. -/
inductive Arguments where
  | none
  | cons (first : Expression) (others : Arguments)

end

deriving instance DecidableEq, Repr for Expression, Arguments

mutual

/-- An expression whose operators bind at least as strongly as some strength, and what follows. -/
def readExpression
    : (fuel : Nat) → (least : Nat) → List Lexeme → Option (Expression × List Lexeme)
  | 0, _, _ => none
  | fuel + 1, least, input => do
      let (left, rest) ← readOperand fuel input
      readOperators fuel least left rest

/-- The operators behind an expression, with their right operands. -/
def readOperators
    : (fuel : Nat) → (least : Nat) → Expression → List Lexeme → Option (Expression × List Lexeme)
  | 0, _, _, _ => none
  | fuel + 1, least, left, ⟨.mark, chars⟩ :: rest =>
      match Operator.ofMark? chars with
      | some op =>
          if least ≤ op.strength then do
            let (right, rest) ← readExpression fuel (op.strength + 1) rest
            readOperators fuel least (.binary op left right) rest
          else
            some (left, ⟨.mark, chars⟩ :: rest)
      | none => some (left, ⟨.mark, chars⟩ :: rest)
  | _ + 1, _, left, rest => some (left, rest)

/-- An operand: a number, a name, an element, a call or an expression in parentheses, behind signs
and casts.
-/
def readOperand : (fuel : Nat) → List Lexeme → Option (Expression × List Lexeme)
  | 0, _ => none
  | _ + 1, ⟨.number, chars⟩ :: rest => some (.number chars, rest)
  | _ + 1, ⟨.quoted, chars⟩ :: rest => some (.quoted chars, rest)
  | fuel + 1, ⟨.mark, ['-']⟩ :: rest => do
      let (operand, rest) ← readOperand fuel rest
      some (.negate operand, rest)
  | fuel + 1, ⟨.mark, ['(']⟩ :: rest =>
      match readType? rest with
      | some (type, ⟨.mark, [')']⟩ :: rest) => do
          let (operand, rest) ← readOperand fuel rest
          some (.cast type operand, rest)
      | _ => do
          let (inner, rest) ← readExpression fuel 0 rest
          let rest ← [mark ')'].isPrefixOf? rest
          some (inner, rest)
  | _ + 1, ⟨.name, name⟩ :: ⟨.mark, ['(']⟩ :: ⟨.mark, [')']⟩ :: rest =>
      some (.call name .none, rest)
  | fuel + 1, ⟨.name, name⟩ :: ⟨.mark, ['(']⟩ :: rest => do
      let (arguments, rest) ← readArguments fuel rest
      some (.call name arguments, rest)
  | fuel + 1, ⟨.name, name⟩ :: ⟨.mark, ['[']⟩ :: rest => do
      let (index, rest) ← readExpression fuel 0 rest
      let rest ← [mark ']'].isPrefixOf? rest
      some (.element name index, rest)
  | _ + 1, ⟨.name, name⟩ :: rest => some (.named name, rest)
  | _ + 1, _ => none

/-- The arguments of a call up to its closing parenthesis. -/
def readArguments : (fuel : Nat) → List Lexeme → Option (Arguments × List Lexeme)
  | 0, _ => none
  | fuel + 1, input => do
      let (first, rest) ← readExpression fuel 0 input
      match rest with
      | ⟨.mark, [',']⟩ :: rest =>
          let (others, rest) ← readArguments fuel rest
          some (.cons first others, rest)
      | ⟨.mark, [')']⟩ :: rest => some (.cons first .none, rest)
      | _ => none

end

/-- Fuel with which every expression of an input is read. -/
def fuelFor (input : List Lexeme) : Nat := 4 * input.length + 4

/-- The expression that all characters of a text make. -/
def Expression.read (chars : List Char) : Option Expression :=
  let input := lexemes chars
  match readExpression (fuelFor input) 0 input with
  | some (expression, []) => some expression
  | _ => none

end LazyTensor.Code
