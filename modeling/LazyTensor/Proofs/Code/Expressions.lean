import LazyTensor.Code.Expressions
import LazyTensor.Kernel.Spelling
import LazyTensor.Proofs.Code.Lexemes
import LazyTensor.Proofs.Code.Numerals
import LazyTensor.Proofs.Float.Rounding

/-! What C expressions mean. An expression has a value with a type. Unsigned words wrap around, and
floating numbers are rounded to the nearest of their type at every step. What is not covered, such as
elements of arrays, has no value.
-/

namespace LazyTensor.Code

-----------------------------------------------------------------------------------------
-- Values
-----------------------------------------------------------------------------------------

/-- A value with its type. -/
inductive Value where
  | signed (number : Int64)
  | unsigned (word : UInt64)
  /-- The pattern of a floating number. -/
  | floating (dtype : DType) (bits : Nat)
  | quoted (chars : List Char)
deriving DecidableEq

namespace Value

/-- The value of a constant. Floating ones are rounded to their type. -/
def ofConstant : Constant → Value
  | .signed number => signed (.ofNat number)
  | .unsigned word => unsigned word
  | .floating dtype number => floating dtype (dtype.format.round number)

/-- The other sign. -/
def negate : Value → Option Value
  | floating dtype bits => some (floating dtype (dtype.format.opposite bits))
  | _ => none

/-- A value in another type. -/
def cast : CType → Value → Option Value
  | .unsigned, signed number => some (unsigned number.toUInt64)
  | .floating dtype, unsigned word => some (floating dtype (dtype.format.round word.toNat))
  | _, _ => none

/-- The value of an operator on two values. -/
def combine : Operator → Value → Value → Option Value
  | .xor, unsigned left, unsigned right => some (unsigned (left ^^^ right))
  | .shiftRight, unsigned word, signed count =>
      if 0 ≤ count ∧ count < 64 then some (unsigned (word >>> count.toUInt64)) else none
  | .add, unsigned left, unsigned right => some (unsigned (left + right))
  | .mul, unsigned left, unsigned right => some (unsigned (left * right))
  | .mul, floating dtype left, floating other right =>
      let finite (bits : Nat) := dtype.format.unsigned bits < dtype.format.infinity
      if dtype = other ∧ finite left ∧ finite right then
        some (floating dtype (dtype.format.product left right))
      else
        none
  | _, _, _ => none

end Value

/-- What names stand for. -/
structure Environment where
  values : List Char → Option Value
  functions : List Char → List Value → Option Value

mutual

/-- The value of an expression. -/
def Expression.evaluate (environment : Environment) : Expression → Option Value
  | .number chars => (readConstant chars).map .ofConstant
  | .quoted chars => some (.quoted chars)
  | .named name => environment.values name
  | .element .. => none
  | .call name arguments => do
      let values ← arguments.evaluate environment
      environment.functions name values
  | .negate operand => do
      let value ← operand.evaluate environment
      value.negate
  | .cast type operand => do
      let value ← operand.evaluate environment
      value.cast type
  | .binary op left right => do
      let first ← left.evaluate environment
      let second ← right.evaluate environment
      first.combine op second

/-- The values of arguments. -/
def Arguments.evaluate (environment : Environment) : Arguments → Option (List Value)
  | .none => some []
  | .cons first others => do
      let value ← first.evaluate environment
      let values ← others.evaluate environment
      some (value :: values)

end

/-- The functions of the compiler that stand for infinity and for what is no number. -/
def builtin (name : List Char) (arguments : List Value) : Option Value :=
  DType.all.findSome? fun dtype =>
    if name = (dtype.mathFunction "__builtin_inf").toList ∧ arguments = [] then
      some (.floating dtype dtype.format.infinity)
    else if name = (dtype.mathFunction "__builtin_nan").toList
        ∧ arguments = [.quoted ['\"', '\"']] then
      some (.floating dtype dtype.format.nan)
    else
      none

/-- Only the functions of the compiler are known. -/
def Environment.initial : Environment := ⟨fun _ => none, builtin⟩

/-- The value that a text has as an expression. -/
def evaluate (environment : Environment) (text : String) : Option Value :=
  (Expression.read text.toList).bind (·.evaluate environment)

-----------------------------------------------------------------------------------------
-- Floating numbers
-----------------------------------------------------------------------------------------

/-- The pattern that is nearest to a numeral is that of its value. -/
theorem Numeral.nearest_eq (numeral : Numeral) {format : Float.Format} (regular : format.Regular)
    (based : 0 < numeral.base)
    : numeral.nearest format = format.round numeral.value := by
  have scaled : 0 < numeral.scale := by
    rw [scale]
    split
    · exact Nat.two_pos
    · exact based
  have den :
      0 < numeral.base ^ numeral.places.getD 0 * numeral.scale ^ (-numeral.exponent.getD 0).toNat :=
    Nat.mul_pos (Nat.pow_pos based) (Nat.pow_pos scaled)
  have power
      : (numeral.scale : ℚ) ^ numeral.exponent.getD 0
        = numeral.scale ^ (numeral.exponent.getD 0).toNat
          / numeral.scale ^ (-numeral.exponent.getD 0).toNat :=
    Float.zpow_eq_div (by exact_mod_cast scaled.ne') _
  simp only [nearest, Nat.pow_eq]
  rw [Float.Format.encodeRatio_eq regular false _ den, value, power]
  push_cast
  rw [div_mul_div_comm]
  rfl

theorem Numeral.base_pos (chars : List Char) : 0 < (Numeral.read chars).base := by
  have kept (base : Nat) (chars : List Char) : (ofBase base chars).base = base := by
    rw [ofBase]
    split <;> rfl
  unfold read
  split
  · rw [kept]
    decide
  · rw [kept]
    decide

/-- A floating number of a type is a constant of the type, rounded. -/
theorem floating?_eq_some {dtype : DType} (regular : dtype.format.Regular) {chars : List Char}
    {bits : Nat}
    : floating? dtype chars = some bits
      ↔ ∃ number,
          readConstant chars = some (.floating dtype number) ∧ dtype.format.round number = bits := by
  have nearest := (Numeral.read chars).nearest_eq regular (Numeral.base_pos chars)
  rw [floating?, readConstant]
  cases (Numeral.read chars).isValid with
  | false => simp
  | true =>
      cases (Numeral.read chars).isInteger with
      | true =>
          simp only [if_true, not_true_eq_false, false_and, and_false, if_false]
          split_ifs <;> simp
      | false =>
          cases dtype with
          | float32 =>
              have suffix : DType.float32.mathSuffix.toList = ['f'] := rfl
              rw [suffix]
              by_cases narrow : (Numeral.read chars).suffix = ['f']
              · simp [narrow, nearest]
              · by_cases wide : (Numeral.read chars).suffix = [] <;> simp [narrow, wide]
          | float64 =>
              have suffix : DType.float64.mathSuffix.toList = [] := rfl
              rw [suffix]
              by_cases wide : (Numeral.read chars).suffix = []
              · simp [wide, nearest]
              · by_cases narrow : (Numeral.read chars).suffix = ['f'] <;> simp [narrow, wide]

end LazyTensor.Code
