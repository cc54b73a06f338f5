import Mathlib.Algebra.Order.Field.Rat
import Mathlib.Algebra.Order.Field.Power
import LazyTensor.Code.Numerals
import LazyTensor.Proofs.Text.Separated

/-! The constants that numbers in C text stand for. A point or an exponent makes a number a floating
constant, of the type that the suffix selects; without them it is an integer. What is not covered,
such as other suffixes, is no constant.
-/

namespace LazyTensor.Code

-----------------------------------------------------------------------------------------
-- Digits
-----------------------------------------------------------------------------------------

/-- A decimal digit is one of those that are told by their place. -/
theorem isDigit_iff (char : Char) : char.isDigit = true ↔ '0' ≤ char ∧ char ≤ '9' := by
  rw [Char.isDigit, Bool.and_eq_true, decide_eq_true_eq, decide_eq_true_eq]
  rfl

theorem digit?_of_isDigit {char : Char} (digit : char.isDigit = true)
    : digit? 10 char = some (char.toNat - '0'.toNat) := by
  have range := (isDigit_iff char).mp digit
  have most : char.toNat ≤ '9'.toNat := range.2
  have small : char.toNat - '0'.toNat < 10 := by
    rw [show '9'.toNat = 57 from rfl] at most
    rw [show '0'.toNat = 48 from rfl]
    omega
  rw [digit?, Text.hexDigit?, if_pos range, Option.filter_some, if_pos (by simpa using small)]

theorem digit?_of_not_isDigit {char : Char} (other : char.isDigit = false)
    : digit? 10 char = none := by
  have outside : ¬('0' ≤ char ∧ char ≤ '9') := by
    rw [← isDigit_iff, other]
    exact Bool.false_ne_true
  rw [digit?, Text.hexDigit?, if_neg outside]
  split_ifs
  · simp
  · simp
  · rfl

/-- Decimal digits are read up to the first other character, by induction on them. -/
theorem Digits.read_append {digits rest : List Char}
    (all : ∀ char ∈ digits, char.isDigit = true)
    (ends : ∀ char ∈ rest.head?, char.isDigit = false) (value count : Nat)
    : Digits.read 10 value count (digits ++ rest)
      = ⟨Nat.ofDigitChars 10 digits value, count + digits.length, rest⟩ := by
  induction digits generalizing value count with
  | nil =>
      cases rest with
      | nil => rfl
      | cons char rest =>
          rw [List.nil_append, Digits.read, digit?_of_not_isDigit (ends char rfl)]
          rfl
  | cons char digits ih =>
      rw [List.forall_mem_cons] at all
      rw [List.cons_append, Digits.read, digit?_of_isDigit all.1]
      simp only [ih all.2, Nat.ofDigitChars_cons, List.length_cons, Nat.add_assoc, Nat.add_comm 1]

-----------------------------------------------------------------------------------------
-- Numerals
-----------------------------------------------------------------------------------------

/-- The number that the parts stand for. -/
def Numeral.value (numeral : Numeral) : ℚ :=
  numeral.digits / numeral.base ^ numeral.places.getD 0
    * numeral.scale ^ numeral.exponent.getD 0

/-- A constant with its type. -/
inductive Constant where
  /-- An integer without a suffix, which fits a signed type. -/
  | signed (number : Nat)
  | unsigned (word : UInt64)
  | floating (dtype : DType) (number : ℚ)
deriving DecidableEq

/-- The constant that a number stands for. -/
def readConstant (chars : List Char) : Option Constant :=
  let numeral := Numeral.read chars
  if numeral.isValid then
    if numeral.isInteger then
      if numeral.suffix = [] ∧ numeral.digits < 2 ^ 63 then
        some (.signed numeral.digits)
      else if numeral.suffix = ['U', 'L', 'L'] ∧ numeral.digits < 2 ^ 64 then
        some (.unsigned (.ofNat numeral.digits))
      else
        none
    else if numeral.suffix = [] then some (.floating .float64 numeral.value)
    else if numeral.suffix = ['f'] then some (.floating .float32 numeral.value)
    else none
  else
    none

-----------------------------------------------------------------------------------------
-- Decimal numbers
-----------------------------------------------------------------------------------------

section Decimal

variable {whole fraction rest : List Char}

/-- Without the mark of a base the digits are decimal. -/
theorem Numeral.read_decimal {chars : List Char} (unmarked : chars[1]? ≠ some 'x')
    : Numeral.read chars = ofBase 10 chars := by
  unfold read
  split
  · exact absurd rfl unmarked
  · rfl

/-- Decimal digits before something that is neither a digit nor a point. -/
theorem Numeral.ofBase_whole (all : ∀ char ∈ whole, char.isDigit = true)
    (ends : ∀ char ∈ rest.head?, char.isDigit = false ∧ char ≠ '.')
    : ofBase 10 (whole ++ rest)
      = ⟨10, Nat.ofDigitChars 10 whole 0, whole.length, none, (readExponent 10 rest).1,
          (readExponent 10 rest).2⟩ := by
  rw [ofBase, Digits.read_append all fun char member => (ends char member).1]
  simp only [Nat.zero_add]
  split
  · exact absurd rfl (ends '.' rfl).2
  · rfl

/-- Decimal digits around a point. -/
theorem Numeral.ofBase_point (all : ∀ char ∈ whole, char.isDigit = true)
    (others : ∀ char ∈ fraction, char.isDigit = true)
    (ends : ∀ char ∈ rest.head?, char.isDigit = false)
    : ofBase 10 (whole ++ '.' :: (fraction ++ rest))
      = ⟨10, Nat.ofDigitChars 10 (whole ++ fraction) 0, whole.length, some fraction.length,
          (readExponent 10 rest).1, (readExponent 10 rest).2⟩ := by
  have point : ∀ char ∈ ('.' :: (fraction ++ rest)).head?, char.isDigit = false := by
    rintro char ⟨⟩
    rfl
  rw [ofBase, Digits.read_append all point]
  simp only [Digits.read_append others ends, Nat.zero_add, Nat.ofDigitChars_append]

/-- A number without a sign. -/
theorem readSign_of_isDigit {char : Char} (digit : char.isDigit = true) (rest : List Char)
    : readSign (char :: rest) = (false, char :: rest) := by
  unfold readSign
  split
  · next same => cases same; exact absurd digit (by decide)
  · next same => cases same; exact absurd digit (by decide)
  · rfl

/-- An exponent is read up to the first character that is no digit. -/
theorem readExponent_repr (power : ℤ) (ends : ∀ char ∈ rest.head?, char.isDigit = false)
    : readExponent 10 ('e' :: (power.repr.toList ++ rest)) = (some power, rest) := by
  have digits (number : Nat)
      : Digits.read 10 0 0 (Nat.toDigits 10 number ++ rest)
        = ⟨number, (Nat.toDigits 10 number).length, rest⟩ := by
    rw [Digits.read_append (Text.isDigit_toDigits number) ends, Nat.ofDigitChars_ten_toDigits,
      Nat.zero_add]
  have some (number : Nat) : (Nat.toDigits 10 number).length ≠ 0 := Nat.length_toDigits_pos.ne'
  have unsigned (number : Nat)
      : readSign (Nat.toDigits 10 number ++ rest) = (false, Nat.toDigits 10 number ++ rest) := by
    have all := Text.isDigit_toDigits number
    obtain ⟨first, others, same⟩ := Text.toDigits_eq_cons number
    rw [same] at all ⊢
    exact readSign_of_isDigit (all first List.mem_cons_self) _
  cases power with
  | ofNat number =>
      rw [Int.repr, Nat.toList_repr, readExponent, unsigned, digits]
      exact if_pos ⟨rfl, some number⟩
  | negSucc number =>
      rw [Int.repr, String.toList_append, Nat.toList_repr]
      change readExponent 10 ('e' :: '-' :: (Nat.toDigits 10 (number + 1) ++ rest)) = _
      rw [readExponent, readSign, digits]
      exact if_pos ⟨rfl, some (number + 1)⟩

/-- Digits do not mark a base. -/
theorem unmarked_of_digits (all : ∀ char ∈ whole, char.isDigit = true) (some : whole ≠ [])
    (rest : List Char) (ends : rest.head? ≠ Option.some 'x')
    : (whole ++ rest)[1]? ≠ Option.some 'x' := by
  obtain ⟨first, others, rfl⟩ := List.exists_cons_of_ne_nil some
  cases others with
  | nil =>
      rwa [List.cons_append, List.getElem?_cons_succ, List.nil_append, ← List.head?_eq_getElem?]
  | cons second others =>
      rintro ⟨⟩
      exact absurd (all 'x' (by simp)) (by decide)

/-- A decimal number with a point or an exponent is a floating constant. -/
theorem readConstant_floating {chars : List Char} {dtype : DType} {digits count : Nat}
    {places : Option Nat} {exponent : Option ℤ}
    (read : Numeral.read chars
      = ⟨10, digits, count, places, exponent, dtype.mathSuffix.toList⟩)
    (some : 0 < count) (floating : places.isSome = true ∨ exponent.isSome = true)
    : readConstant chars
      = Option.some (.floating dtype
          (digits / 10 ^ places.getD 0 * 10 ^ exponent.getD 0)) := by
  have notInteger : (Numeral.read chars).isInteger = false := by
    rw [read, Numeral.isInteger]
    rcases floating with point | power
    · simp [Option.isNone_eq_false_iff.mpr point]
    · simp [Option.isNone_eq_false_iff.mpr power]
  have valid : (Numeral.read chars).isValid = true := by
    rw [Numeral.isValid, notInteger, read]
    simp
    omega
  rw [readConstant, if_pos valid, notInteger, read]
  cases dtype with
  | float32 => rfl
  | float64 => rfl

/-- Digits around a point are a floating constant. -/
theorem readConstant_point (all : ∀ char ∈ whole, char.isDigit = true) (some : whole ≠ [])
    (others : ∀ char ∈ fraction, char.isDigit = true)
    (ends : ∀ char ∈ rest.head?, char.isDigit = false) {dtype : DType}
    {exponent : Option ℤ} (tail : readExponent 10 rest = (exponent, dtype.mathSuffix.toList))
    : readConstant (whole ++ '.' :: (fraction ++ rest))
      = Option.some (.floating dtype
          (Nat.ofDigitChars 10 (whole ++ fraction) 0 / 10 ^ fraction.length
            * 10 ^ exponent.getD 0)) := by
  have unmarked := unmarked_of_digits all some ('.' :: (fraction ++ rest)) (by simp)
  have read := Numeral.read_decimal unmarked
  rw [Numeral.ofBase_point all others ends, tail] at read
  exact readConstant_floating read (List.length_pos_iff.mpr some) (Or.inl rfl)

/-- No suffix goes on with the digits in front of it. -/
theorem not_isDigit_mathSuffix (dtype : DType)
    : ∀ char ∈ dtype.mathSuffix.toList.head?, char.isDigit = false := by
  cases dtype with
  | float32 =>
      rintro char ⟨⟩
      rfl
  | float64 => rintro char ⟨⟩

/-- Digits with an exponent are a floating constant. -/
theorem readConstant_exponent (all : ∀ char ∈ whole, char.isDigit = true) (some : whole ≠ [])
    (power : ℤ) (dtype : DType)
    : readConstant (whole ++ 'e' :: (power.repr.toList ++ dtype.mathSuffix.toList))
      = Option.some (.floating dtype (Nat.ofDigitChars 10 whole 0 * 10 ^ power)) := by
  have unmarked
      := unmarked_of_digits all some ('e' :: (power.repr.toList ++ dtype.mathSuffix.toList))
          (by simp)
  have read := Numeral.read_decimal unmarked
  rw [Numeral.ofBase_whole all (by simp), readExponent_repr power (not_isDigit_mathSuffix dtype)]
    at read
  rw [readConstant_floating read (List.length_pos_iff.mpr some) (Or.inr rfl)]
  simp

/-- The digits of a number before something that neither goes on with them nor marks a base. -/
theorem Numeral.read_append (number : Nat)
    (ends : ∀ char ∈ rest.head?, char.isDigit = false ∧ char ≠ '.' ∧ char ≠ 'x')
    : Numeral.read (Nat.toDigits 10 number ++ rest)
      = ⟨10, number, (Nat.toDigits 10 number).length, none, (readExponent 10 rest).1,
          (readExponent 10 rest).2⟩ := by
  have all := Text.isDigit_toDigits number
  have plain : rest.head? ≠ Option.some 'x' := fun same => absurd rfl (ends 'x' same).2.2
  rw [read_decimal (unmarked_of_digits all Nat.toDigits_ne_nil rest plain),
    ofBase_whole all fun char member => ⟨(ends char member).1, (ends char member).2.1⟩,
    Nat.ofDigitChars_ten_toDigits]

/-- The digits of a number with nothing behind them. -/
theorem Numeral.read_toDigits (number : Nat)
    : Numeral.read (Nat.toDigits 10 number)
      = ⟨10, number, (Nat.toDigits 10 number).length, none, none, []⟩ := by
  have ends : ∀ char ∈ ([] : List Char).head?, char.isDigit = false ∧ char ≠ '.' ∧ char ≠ 'x' := by
    simp
  have read := read_append number ends
  rwa [List.append_nil] at read

/-- The digits of a word with the suffix of its type. -/
theorem readConstant_unsigned (word : UInt64)
    : readConstant (Nat.toDigits 10 word.toNat ++ ['U', 'L', 'L'])
      = Option.some (.unsigned word) := by
  have ends : ∀ char ∈ ['U', 'L', 'L'].head?, char.isDigit = false ∧ char ≠ '.' ∧ char ≠ 'x' := by
    rintro char ⟨⟩
    exact ⟨rfl, by decide, by decide⟩
  have read := Numeral.read_append word.toNat ends
  have bounded := word.toNat_lt
  have long : 0 < (Nat.toDigits 10 word.toNat).length := Nat.length_toDigits_pos
  simp [readConstant, read, Numeral.isValid, Numeral.isInteger, readExponent, bounded, long]

/-- Decimal digits stand for their number, however large it is. -/
theorem natural?_toDigits (number : Nat) : natural? (Nat.toDigits 10 number) = some number := by
  have long : 0 < (Nat.toDigits 10 number).length := Nat.length_toDigits_pos
  simp [natural?, Numeral.read_toDigits, Numeral.isValid, Numeral.isInteger, long]

/-- The digits of a number are an integer constant if the number fits its type. -/
theorem readConstant_toDigits (number : Nat)
    : readConstant (Nat.toDigits 10 number)
      = if number < 2 ^ 63 then Option.some (.signed number) else none := by
  have long : 0 < (Nat.toDigits 10 number).length := Nat.length_toDigits_pos
  simp [readConstant, Numeral.read_toDigits, Numeral.isValid, Numeral.isInteger, long]

end Decimal

end LazyTensor.Code
