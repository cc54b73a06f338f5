import LazyTensor.Element
import LazyTensor.Float.Format
import LazyTensor.Text.Listing

/-! The numbers of C text. A number has digits, perhaps a point among them, perhaps an exponent, and
a suffix. Without a point and an exponent it is an integer, which may not start with a needless
zero, since that would make it octal.
-/

namespace LazyTensor.Code

/-- The value of a digit in a base up to sixteen. -/
def digit? (base : Nat) (char : Char) : Option Nat := (Text.hexDigit? char).filter (· < base)

/-- Digits that were read, as a number, with how many they are and what follows. -/
structure Digits where
  value : Nat
  count : Nat
  rest : List Char
deriving DecidableEq, Repr

/-- Reads digits on from a number. -/
def Digits.read (base : Nat) : (value count : Nat) → List Char → Digits
  | value, count, [] => ⟨value, count, []⟩
  | value, count, char :: rest =>
      match digit? base char with
      | some digit => read base (base * value + digit) (count + 1) rest
      | none => ⟨value, count, char :: rest⟩

/-- The parts of a number. -/
structure Numeral where
  /-- The base of the digits. -/
  base : Nat
  /-- All digits as one number, without the point. -/
  digits : Nat
  /-- How many digits stand in front of the point. -/
  whole : Nat
  /-- How many digits stand behind the point, if there is one. -/
  places : Option Nat
  exponent : Option Int
  suffix : List Char
deriving DecidableEq, Repr

/-- Whether a number has a minus in front, and what follows its sign. -/
def readSign : List Char → Bool × List Char
  | '-' :: digits => (true, digits)
  | '+' :: digits => (false, digits)
  | digits => (false, digits)

/-- An exponent and what follows it. Without digits it is no exponent. -/
def readExponent (base : Nat) : List Char → Option Int × List Char
  | [] => (none, [])
  | letter :: rest =>
      let sign := readSign rest
      let power := Digits.read 10 0 0 sign.2
      if letter = (if base = 16 then 'p' else 'e') ∧ power.count ≠ 0 then
        (some (if sign.1 then -power.value else power.value), power.rest)
      else
        (none, letter :: rest)

namespace Numeral

/-- Reads the parts of a number behind the mark of its base. -/
def ofBase (base : Nat) (chars : List Char) : Numeral :=
  let whole := Digits.read base 0 0 chars
  match whole.rest with
  | '.' :: rest =>
      let fraction := Digits.read base whole.value 0 rest
      let (exponent, suffix) := readExponent base fraction.rest
      ⟨base, fraction.value, whole.count, some fraction.count, exponent, suffix⟩
  | rest =>
      let (exponent, suffix) := readExponent base rest
      ⟨base, whole.value, whole.count, none, exponent, suffix⟩

/-- Reads the parts of a number. -/
def read : List Char → Numeral
  | '0' :: 'x' :: chars => ofBase 16 chars
  | chars => ofBase 10 chars

/-- Whether the number has neither a point nor an exponent. -/
def isInteger (numeral : Numeral) : Bool := numeral.places.isNone && numeral.exponent.isNone

/-- A number has digits. A hexadecimal point needs an exponent, and decimal digits of an integer may
not have zeros in front.
-/
def isValid (numeral : Numeral) : Bool :=
  0 < numeral.whole + numeral.places.getD 0
    && if numeral.base = 16 then numeral.places.isNone || numeral.exponent.isSome
      else !numeral.isInteger || numeral.whole == (Nat.toDigits 10 numeral.digits).length

/-- The base of the exponent, which for hexadecimal digits is two. -/
def scale (numeral : Numeral) : Nat := if numeral.base = 16 then 2 else numeral.base

/-- The pattern of the number of a format that is nearest. -/
def nearest (numeral : Numeral) (format : Float.Format) : Nat :=
  let power := numeral.exponent.getD 0
  format.encodeRatio false (numeral.digits * numeral.scale.pow power.toNat)
    (numeral.base.pow (numeral.places.getD 0) * numeral.scale.pow (-power).toNat)

end Numeral

/-- The number that digits without a point, an exponent or a suffix stand for, however large. -/
def natural? (chars : List Char) : Option Nat :=
  let numeral := Numeral.read chars
  if numeral.isValid ∧ numeral.isInteger ∧ numeral.suffix = [] then some numeral.digits else none

/-- The pattern of a floating number of a type, which its suffix has to select. -/
def floating? (dtype : DType) (chars : List Char) : Option Nat :=
  let numeral := Numeral.read chars
  if numeral.isValid ∧ ¬numeral.isInteger ∧ numeral.suffix = dtype.mathSuffix.toList then
    some (numeral.nearest dtype.format)
  else
    none

end LazyTensor.Code
