/-! Numbers as text: decimal and hexadecimal digits, and lists of them between separators.
-/

namespace LazyTensor.Text

/-- Decimal numbers with `separator` between them. -/
def joined (separator : String) (values : List Nat) : String :=
  separator.intercalate (values.map Nat.repr)

/-- Texts between brackets, with a comma and a blank between them. -/
def bracketed (items : List String) : String :=
  "[" ++ ", ".intercalate items ++ "]"

/-- A list of numbers between brackets, as in `[2, 3]`. -/
def listing (values : List Nat) : String :=
  bracketed (values.map Nat.repr)

/-- A list of pairs between brackets, as in `[(1, 0), (0, 2)]`. -/
def pairListing (values : List (Nat × Nat)) : String :=
  bracketed (values.map fun value => "(" ++ value.1.repr ++ ", " ++ value.2.repr ++ ")")

/-- A number in base sixteen, with zeros in front up to `width` digits. -/
def hexadecimal (width value : Nat) : String :=
  let digits := Nat.toDigits 16 value
  String.ofList (List.replicate (width - digits.length) '0' ++ digits)

/-- The value of a hexadecimal digit in either case. -/
def hexDigit? (digit : Char) : Option Nat :=
  if '0' ≤ digit ∧ digit ≤ '9' then some (digit.toNat - '0'.toNat)
  else if 'a' ≤ digit ∧ digit ≤ 'f' then some (digit.toNat - 'a'.toNat + 10)
  else if 'A' ≤ digit ∧ digit ≤ 'F' then some (digit.toNat - 'A'.toNat + 10)
  else none

/-- The number that exactly `width` digits of base sixteen stand for. -/
def ofHexadecimal? (width : Nat) (text : String) : Option Nat :=
  if text.length = width then
    text.toList.foldlM (fun value digit => (hexDigit? digit).map (value * 16 + ·)) 0
  else
    none

end LazyTensor.Text
