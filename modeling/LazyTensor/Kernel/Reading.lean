import LazyTensor.Code.Functions
import LazyTensor.Kernel.Evaluation

/-! What the text of a kernel says. A text is read as C is, element by element: the directive, the
generator if there is one, the head of the function with its parameters, and the statements of its
body with what they compute. Names have to be declared where they are used. A text that says anything
else has no meaning here.
-/

namespace LazyTensor

open Code

namespace Kernel

/-- A function that computes an array from others: the output first and then so many sources, all of
one element type.
-/
structure Routine where
  name : String
  dtype : DType
  arity : Nat
  body : Stmt
deriving DecidableEq, Repr

/-- The output after a call. -/
def Routine.apply (routine : Routine) (arith : Arithmetic) (out : Array Pattern)
    (sources : List (Array Pattern)) : Array Pattern :=
  routine.body.apply arith routine.dtype out sources

-----------------------------------------------------------------------------------------
-- Names
-----------------------------------------------------------------------------------------

/-- The name of a source. -/
def sourceName (source : Nat) : String := "in" ++ source.repr

/-- The counters that an address is made of. -/
def Address.names (address : Address) : List String := address.map (counterName ·.counter)

/-- What an expression needs declared. -/
def Expr.names : Expr → List String
  | constant _ => []
  | draw _ counter => ["kiln_splitmix64", counterName counter]
  | read source address => sourceName source :: address.names
  | unary _ operand => operand.names
  | binary _ left right => left.names ++ right.names

/-- What a single statement needs declared. -/
def Stmt.names : Stmt → List String
  | skip | seq .. | loop .. => []
  | store address value | fold _ address value => "out" :: (address.names ++ value.names)
  | startSum value => value.names
  | addProduct left right => "acc" :: (left.names ++ right.names)
  | storeSum address => "out" :: "acc" :: address.names

/-- The names that a statement declares for what stands behind it, newest first. -/
def Stmt.declared : Stmt → List String
  | seq first second => second.declared ++ first.declared
  | startSum _ => ["acc"]
  | _ => []

/-- The number behind the front of a name, as it is printed. -/
def numbered? (front : String) (name : List Char) : Option Nat := do
  let digits ← front.toList.isPrefixOf? name
  let number ← natural? digits
  if Nat.toDigits 10 number = digits then some number else none

-----------------------------------------------------------------------------------------
-- Addresses
-----------------------------------------------------------------------------------------

/-- A counter, or a counter that is moved by an offset. -/
def coordinate? : Expression → Option (Nat × Nat)
  | .named name => (numbered? "ridx" name).map (·, 0)
  | .binary .add (.named name) (.number offset) => do
      let counter ← numbered? "ridx" name
      let offset ← natural? offset
      some (counter, offset)
  | _ => none

/-- A coordinate, or a coordinate times a stride. -/
def term? : Expression → Option Term
  | .binary .mul coordinate (.number stride) => do
      let (counter, offset) ← coordinate? coordinate
      let stride ← natural? stride
      some ⟨counter, offset, stride⟩
  | coordinate => (coordinate? coordinate).map fun (counter, offset) => ⟨counter, offset, 1⟩

/-- A sum of terms, or zero. -/
def address? : Expression → Option Address
  | .number chars => if natural? chars = some 0 then some [] else none
  | .binary .add left right =>
      match term? (.binary .add left right) with
      | some term => some [term]
      | none => do
          let front ← address? left
          let term ← term? right
          some (front ++ [term])
  | expression => (term? expression).map ([·])

-----------------------------------------------------------------------------------------
-- Numbers
-----------------------------------------------------------------------------------------

/-- The pattern of a constant of an element type. -/
def pattern? (dtype : DType) : Expression → Option Nat
  | .number chars => floating? dtype chars
  | .negate operand => (pattern? dtype operand).map dtype.format.opposite
  | .call name .none =>
      if name = (dtype.mathFunction "__builtin_inf").toList then some dtype.format.infinity
      else none
  | .call name (.cons (.quoted text) .none) =>
      if name = (dtype.mathFunction "__builtin_nan").toList ∧ text = ['\"', '\"'] then
        some dtype.format.nan
      else none
  | _ => none

/-- The state with its high bits folded onto it, as an expression. -/
def foldedState (shift : String) : Expression :=
  .binary .xor (.named ['z']) (.binary .shiftRight (.named ['z']) (.number shift.toList))

/-- The generator as it is defined in kernels. -/
def generator : Definition where
  name := "kiln_splitmix64".toList
  parameters := ["seed".toList, ['i']]
  body :=
    [.assign ['z']
        (.binary .add (.named "seed".toList)
          (.binary .mul (.binary .add (.named ['i']) (.number "1ULL".toList))
            (.number "0x9E3779B97F4A7C15ULL".toList))),
      .assign ['z'] (.binary .mul (foldedState "30") (.number "0xBF58476D1CE4E5B9ULL".toList)),
      .assign ['z'] (.binary .mul (foldedState "27") (.number "0x94D049BB133111EBULL".toList)),
      .yield (foldedState "31")]

/-- How many bits of a word a draw drops, as it is printed. -/
def dropText : DType → List Char
  | .float32 => "40".toList
  | .float64 => "11".toList

/-- What a draw is scaled with, as it is printed. -/
def scaleText : DType → List Char
  | .float32 => "0x1.0p-24f".toList
  | .float64 => "0x1.0p-53".toList

/-- The call of the generator as an expression. -/
def called (seed : UInt64) (counter : Nat) : Expression :=
  .call "kiln_splitmix64".toList
    (.cons (.number (Nat.toDigits 10 seed.toNat ++ ['U', 'L', 'L']))
      (.cons (.cast .unsigned (.named (counterName counter).toList)) .none))

/-- A draw as an expression. -/
def drawn (dtype : DType) (seed : UInt64) (counter : Nat) : Expression :=
  .binary .mul
    (.cast (.floating dtype)
      (.binary .shiftRight (called seed counter) (.number (dropText dtype))))
    (.number (scaleText dtype))

/-- The seed and the counter of a draw. -/
def draw? (dtype : DType) : Expression → Option (UInt64 × Nat)
  | .binary op (.cast type (.binary shift (.call name arguments) count)) scale =>
      match arguments with
      | .cons (.number digits) (.cons (.cast .unsigned (.named index)) .none) => do
          let seed : UInt64 := .ofNat (Numeral.read digits).digits
          let counter ← numbered? "ridx" index
          if .binary op (.cast type (.binary shift (.call name arguments) count)) scale
              = drawn dtype seed counter then
            some (seed, counter)
          else none
      | _ => none
  | _ => none

/-- The functions of one operand that have a name. -/
def unaryNames : List (String × UnaryMap) :=
  [("sin", .sin), ("sqrt", .sqrt), ("exp2", .exp2), ("log2", .log2)]

/-- The function of an element type that a name stands for. -/
def unaryNamed? (dtype : DType) (name : List Char) : Option UnaryMap :=
  (unaryNames.find? fun (plain, _) => (dtype.mathFunction plain).toList == name).map (·.2)

/-- The function that an operator stands for. -/
def binaryOf? : Operator → Option BinaryMap
  | .add => some .add
  | .sub => some .sub
  | .mul => some .mul
  | .div => some .div
  | .xor | .shiftRight => none

mutual

/-- What an expression computes. -/
def value? (dtype : DType) : Expression → Option Expr
  | .number chars => (floating? dtype chars).map fun bits => .constant (dtype.toBinary64 bits)
  | .element name index => do
      let source ← numbered? "in" name
      let address ← address? index
      some (.read source address)
  | .negate operand =>
      match pattern? dtype (.negate operand) with
      | some bits => some (.constant (dtype.toBinary64 bits))
      | none => (value? dtype operand).map (.unary .neg)
  | .call name arguments =>
      match pattern? dtype (.call name arguments) with
      | some bits => some (.constant (dtype.toBinary64 bits))
      | none => do
          match ← values? dtype arguments with
          | [operand] => (unaryNamed? dtype name).map (.unary · operand)
          | [left, right] =>
              if name = (dtype.mathFunction "fmax").toList then some (.binary .max left right)
              else none
          | _ => none
  | .binary op left right =>
      match draw? dtype (.binary op left right) with
      | some (seed, counter) => some (.draw seed counter)
      | none => do
          let op ← binaryOf? op
          let left ← value? dtype left
          let right ← value? dtype right
          some (.binary op left right)
  | .quoted _ | .named _ | .cast .. => none

/-- What arguments compute. -/
def values? (dtype : DType) : Arguments → Option (List Expr)
  | .none => some []
  | .cons first others => do
      let value ← value? dtype first
      let values ← values? dtype others
      some (value :: values)

end

-----------------------------------------------------------------------------------------
-- Statements
-----------------------------------------------------------------------------------------

/-- What a value does to an element of the output that it is assigned to. -/
def assigned? (dtype : DType) (index value : Expression) : Option Stmt := do
  let address ← address? index
  match value with
  | .named name => if name = "acc".toList then some (.storeSum address) else none
  | .call name (.cons total (.cons operand .none)) =>
      if name = (dtype.mathFunction "fmax").toList ∧ total = .element "out".toList index then
        (value? dtype operand).map (.fold .max address)
      else
        (value? dtype value).map (.store address)
  | _ => (value? dtype value).map (.store address)

/-- The statement of a target and a value, perhaps with a type in front that declares the target. -/
def statement? (dtype : DType) (typed : Bool) (joint : List Char) (target value : Expression) :
    Option Stmt :=
  match typed, target with
  | true, .named name =>
      if name = "acc".toList ∧ joint = ['='] then (value? dtype value).map .startSum else none
  | false, .named name =>
      match value with
      | .binary .mul left right =>
          if name = "acc".toList ∧ joint = ['+', '='] then do
            let left ← value? dtype left
            let right ← value? dtype right
            some (.addProduct left right)
          else none
      | _ => none
  | false, .element name index =>
      if name = "out".toList then
        if joint = ['='] then assigned? dtype index value
        else if joint = ['+', '='] then do
          let address ← address? index
          let value ← value? dtype value
          some (.fold .sum address value)
        else none
      else none
  | _, _ => none

/-- A statement up to its semicolon, and what follows. -/
def readStatement (dtype : DType) (input : List Lexeme) : Option (Stmt × List Lexeme) := do
  let typed := [word dtype.cType].isPrefixOf? input
  match ← readExpression (fuelFor input) 0 (typed.getD input) with
  | (target, ⟨.mark, joint⟩ :: rest) =>
      let (value, rest) ← readExpression (fuelFor input) 0 rest
      let statement ← statement? dtype typed.isSome joint target value
      let rest ← [mark ';'].isPrefixOf? rest
      some (statement, rest)
  | _ => none

/-- The counter and the bound of a loop, and what follows its head. -/
def readHead (input : List Lexeme) : Option (Nat × Nat × List Lexeme) := do
  match ← [word "for", mark '(', word "long", word "long"].isPrefixOf? input with
  | ⟨.name, name⟩ :: rest =>
      let starts := [mark '=', ⟨.number, ['0']⟩, mark ';', ⟨.name, name⟩, mark '<']
      let steps := [mark ';', ⟨.name, name⟩, ⟨.mark, ['+', '+']⟩, mark ')', mark '\x7b']
      match ← starts.isPrefixOf? rest with
      | ⟨.number, digits⟩ :: rest =>
          let counter ← numbered? "ridx" name
          let bound ← natural? digits
          let rest ← steps.isPrefixOf? rest
          some (counter, bound, rest)
      | _ => none
  | _ => none

/-- Statements one after the other. -/
def Stmt.ofList : List Stmt → Stmt
  | [] => .skip
  | [body] => body
  | body :: others => .seq body (ofList others)

/-- The statements up to the closing brace, where some names are declared, and what follows. A name
is not declared again within its block.
-/
def readBlock (dtype : DType)
    : (fuel : Nat) → (names : List String) → List Lexeme → Option (List Stmt × List Lexeme)
  | 0, _, _ => none
  | fuel + 1, names, input =>
      match [mark '\x7d'].isPrefixOf? input with
      | some rest => some ([], rest)
      | none =>
          match readHead input with
          | some (counter, bound, rest) => do
              let (body, rest) ← readBlock dtype fuel (counterName counter :: names) rest
              let (others, rest) ← readBlock dtype fuel names rest
              some (.loop counter bound (.ofList body) :: others, rest)
          | none => do
              let (body, rest) ← readStatement dtype input
              if body.names ⊆ names ∧ ∀ name ∈ body.declared, name ∉ names then
                let (others, rest) ← readBlock dtype fuel (body.declared ++ names) rest
                some (body :: others, rest)
              else none

-----------------------------------------------------------------------------------------
-- Kernels
-----------------------------------------------------------------------------------------

/-- The element type of the output, and what follows the output among the parameters. -/
def readOutput (input : List Lexeme) : Option (DType × List Lexeme) :=
  DType.all.findSome? fun dtype =>
    ([mark '(', word dtype.cType, mark '*', word "restrict", word "out"].isPrefixOf? input).map
      (dtype, ·)

/-- A source among the parameters. -/
def sourceLexemes (dtype : DType) (source : Nat) : List Lexeme :=
  [mark ',', word "const", word dtype.cType, mark '*', word "restrict", word (sourceName source)]

/-- How many sources the parameters have from some number on, and what follows the opening brace. -/
def readSources (dtype : DType)
    : (fuel : Nat) → (number : Nat) → List Lexeme → Option (Nat × List Lexeme)
  | 0, _, _ => none
  | fuel + 1, number, input =>
      match [mark ')', mark '\x7b'].isPrefixOf? input with
      | some rest => some (number, rest)
      | none => do
          let rest ← (sourceLexemes dtype number).isPrefixOf? input
          readSources dtype fuel (number + 1) rest

/-- The names of the functions in front of a kernel, of which there is the generator at most, and
what follows.
-/
def readHelpers (input : List Lexeme) : Option (List String × List Lexeme) :=
  match readDefinition input with
  | none => some ([], input)
  | some (definition, rest) =>
      if definition = generator then some (["kiln_splitmix64"], rest) else none

/-- The directive in front of a kernel with the end of its line. -/
def directive : String := "#include <math.h>\n"

/-- The function that a text defines. -/
def Routine.read (source : String) : Option Routine := do
  let input := lexemes (← directive.toList.isPrefixOf? source.toList)
  let (helpers, rest) ← readHelpers input
  match ← [word "void"].isPrefixOf? rest with
  | ⟨.name, name⟩ :: rest =>
      let (dtype, rest) ← readOutput rest
      let (arity, rest) ← readSources dtype input.length 0 rest
      let names := "out" :: ((List.range arity).map sourceName ++ helpers)
      match ← readBlock dtype input.length names rest with
      | (body, []) => some ⟨String.ofList name, dtype, arity, .ofList body⟩
      | _ => none
  | _ => none

end Kernel

end LazyTensor
