import LazyTensor.Float.Decimal

/-! How numbers are written. Messages write the shortest digits positionally and without a
needless point; scientific notation puts one digit before the point and always an exponent.
-/

namespace LazyTensor.Float

/-- `count` zeros. -/
def zeros (count : Nat) : String := String.ofList (List.replicate count '0')

/-- A decimal without an exponent: zeros fill the places up to the point, on either side of it. -/
def Decimal.positional (decimal : Decimal) : String :=
  let digits := Nat.toDigits 10 decimal.digits
  if 0 ≤ decimal.exponent then
    String.ofList digits ++ zeros decimal.exponent.toNat
  else
    let places := (-decimal.exponent).toNat
    if places < digits.length then
      let whole := digits.length - places
      String.ofList (digits.take whole) ++ "." ++ String.ofList (digits.drop whole)
    else
      "0." ++ zeros (places - digits.length) ++ String.ofList digits

/-- A decimal with one digit before the point and the power of ten behind an `e`. -/
def Decimal.scientific (decimal : Decimal) : String :=
  let digits := Nat.toDigits 10 decimal.digits
  let fraction := digits.drop 1
  let mantissa :=
    String.ofList (digits.take 1)
      ++ (if fraction.isEmpty then "" else "." ++ String.ofList fraction)
  mantissa ++ "e" ++ (decimal.exponent + (digits.length - 1 : Nat)).repr

namespace Format

/-- A number as messages write it: the shortest digits that read back, never an exponent. -/
def plain (format : Format) (bits : Nat) : String :=
  let sign := if format.isNegative bits then "-" else ""
  if format.isNaN bits then
    "NaN"
  else if format.isInfinite bits then
    sign ++ "inf"
  else if format.isZero bits then
    sign ++ "0"
  else
    sign ++ (format.shortest (format.magnitude bits)).positional

/-- A finite integral number with one place after the point. -/
def onePlace (format : Format) (bits : Nat) : String :=
  let sign := if format.isNegative bits then "-" else ""
  sign ++ (format.wholePart bits).repr ++ ".0"

/-- A finite number other than zero in scientific notation. -/
def exponential (format : Format) (bits : Nat) : String :=
  let sign := if format.isNegative bits then "-" else ""
  sign ++ (format.shortest (format.magnitude bits)).scientific

end Format

end LazyTensor.Float
