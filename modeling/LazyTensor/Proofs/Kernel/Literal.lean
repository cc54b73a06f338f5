import LazyTensor.Kernel.Reading
import LazyTensor.Proofs.Code.Forms
import LazyTensor.Proofs.Float.Conversion
import LazyTensor.Proofs.Float.Shortest

/-! Literals read back. A literal is read as a C expression: its digits are one number, which is
rounded to the type of its suffix, and a minus in front changes the sign. What comes out is the
number that the literal was made from, in the element type.
-/

namespace LazyTensor

open Float.Format Code Kernel

-----------------------------------------------------------------------------------------
-- Constants
-----------------------------------------------------------------------------------------

/-- A constant has the value that its pattern is read as, by recursion on the signs in front. -/
theorem DType.evaluate_of_pattern? (dtype : DType)
    : ∀ {expression : Expression} {bits : Nat},
        pattern? dtype expression = some bits
        → expression.evaluate .initial = some (.floating dtype bits)
  | .number chars, bits, read => by
      obtain ⟨number, constant, rfl⟩ := (floating?_eq_some dtype.format_regular).mp read
      rw [Expression.evaluate, constant]
      rfl
  | .negate operand, bits, read => by
      obtain ⟨other, inner, rfl⟩ := Option.map_eq_some_iff.mp read
      rw [Expression.evaluate, evaluate_of_pattern? dtype inner]
      rfl
  | .call name .none, bits, read => by
      obtain ⟨rfl, same⟩ := (Option.ite_none_right_eq_some).mp read
      obtain rfl := Option.some.inj same
      cases dtype <;> rfl
  | .call name (.cons (.quoted text) .none), bits, read => by
      obtain ⟨⟨rfl, rfl⟩, same⟩ := (Option.ite_none_right_eq_some).mp read
      obtain rfl := Option.some.inj same
      cases dtype <;> rfl

/-- A text that is a constant of an element type. -/
def DType.Constant (dtype : DType) (text : String) (bits : Nat) : Prop :=
  ∃ expression,
    Forms Operator.tightest text expression ∧ pattern? dtype expression = some bits

/-- A constant evaluates to its pattern. -/
theorem DType.Constant.evaluate_eq {dtype : DType} {text : String} {bits : Nat}
    (constant : dtype.Constant text bits)
    : evaluate .initial text = some (.floating dtype bits) := by
  obtain ⟨expression, forms, read⟩ := constant
  rw [evaluate, forms.read_eq, Option.bind_some, dtype.evaluate_of_pattern? read]

-----------------------------------------------------------------------------------------
-- Signed numbers
-----------------------------------------------------------------------------------------

/-- The other sign of an unsigned pattern. -/
theorem Float.Format.opposite_of_lt {format : Float.Format} {bits : Nat}
    (few : bits < 2 ^ format.signPosition)
    : format.opposite bits = format.withSign true bits := by
  have positive : format.isNegative bits = false := format.isNegative_withSign false few
  rw [opposite, positive, format.unsigned_of_lt few]
  rfl

/-- A floating number, perhaps behind a minus, is rounded to its type. -/
theorem DType.constant_signed {dtype : DType} (negative : Bool) {text : String} {first : Char}
    {rest : List Char} {number : ℚ} (least : 0 ≤ number) (chars : text.toList = first :: rest)
    (digit : first.isDigit = true)
    (single : Lexes (first :: rest) [⟨.number, first :: rest⟩])
    (constant : readConstant (first :: rest) = some (.floating dtype number))
    : dtype.Constant ((if negative then "-" else "") ++ text)
        (dtype.format.withSign negative (dtype.format.round number)) := by
  have lexed : Lexes text.toList [⟨.number, text.toList⟩] := chars ▸ single
  have read : pattern? dtype (.number text.toList) = some (dtype.format.round number) :=
    (floating?_eq_some dtype.format_regular).mpr ⟨number, chars ▸ constant, rfl⟩
  cases negative with
  | false =>
      rw [if_neg Bool.false_ne_true, String.empty_append]
      exact ⟨_, forms_number lexed, read⟩
  | true =>
      have apart : ∀ char ∈ text.toList.head?, char ∉ ['-', '=', '>'] := by
        rw [chars]
        rintro char ⟨⟩ sign
        simp only [List.mem_cons, List.not_mem_nil, or_false] at sign
        rcases sign with rfl | rfl | rfl <;> exact absurd digit (by decide)
      have within := (round_nearest dtype.format_regular least).within
      rw [if_pos rfl]
      refine ⟨_, (forms_number lexed).negate apart, ?_⟩
      rw [pattern?, read, Option.map_some, opposite_of_lt (within.trans_lt dtype.format.infinity_lt)]

namespace DType

theorem all_mathSuffix_number (dtype : DType)
    : ∀ char ∈ dtype.mathSuffix.toList, Code.isNumberChar char = true := by
  rw [← List.all_eq_true]
  cases dtype with
  | float32 => decide
  | float64 => decide

/-- A literal for an integral number has one place after the point. -/
theorem constant_onePlace (dtype : DType) {bits : Nat}
    (integral : dtype.format.isIntegral bits = true)
    : dtype.Constant (dtype.format.onePlace bits ++ dtype.mathSuffix)
        (dtype.format.withSign (dtype.format.isNegative bits)
          (dtype.format.round (dtype.format.magnitude bits).value)) := by
  rw [value_eq_wholePart integral, onePlace]
  generalize dtype.format.wholePart bits = whole
  have digits := Text.isDigit_toDigits whole
  have tail : Code.readExponent 10 dtype.mathSuffix.toList = (none, dtype.mathSuffix.toList) := by
    cases dtype with
    | float32 => decide
    | float64 => decide
  have place : ∀ char ∈ ['0'], char.isDigit = true := List.forall_mem_singleton.mpr rfl
  have constant
      := Code.readConstant_point digits Nat.toDigits_ne_nil place
          (Code.not_isDigit_mathSuffix dtype) tail
  have number
      : (Nat.ofDigitChars 10 (Nat.toDigits 10 whole ++ ['0']) 0 / 10 ^ ['0'].length
          * 10 ^ (none : Option ℤ).getD 0 : ℚ)
        = whole := by
    rw [Nat.ofDigitChars_append, Nat.ofDigitChars_ten_toDigits]
    simp [Nat.ofDigitChars_cons]
  rw [number] at constant
  have chars
      : (whole.repr ++ ".0" ++ dtype.mathSuffix).toList
        = Nat.toDigits 10 whole ++ '.' :: (['0'] ++ dtype.mathSuffix.toList) := by
    simp
  obtain ⟨first, others, same⟩ := Text.toDigits_eq_cons whole
  rw [same, List.forall_mem_cons] at digits
  rw [same, List.cons_append] at constant chars
  have single
      : ∀ char ∈ others ++ '.' :: (['0'] ++ dtype.mathSuffix.toList),
          Code.isNumberChar char = true := by
    rw [List.forall_mem_append, List.forall_mem_cons, List.forall_mem_append]
    exact ⟨fun char member => Code.isNumberChar_of_isDigit (digits.2 char member), rfl,
      List.forall_mem_singleton.mpr rfl, dtype.all_mathSuffix_number⟩
  have value :=
    constant_signed (dtype.format.isNegative bits) (Nat.cast_nonneg whole) chars digits.1
      (Code.lexes_number digits.1 single) constant
  simpa only [String.append_assoc] using value

/-- A decimal in scientific notation, by its first digit and the others. -/
theorem toList_scientific {decimal : Float.Decimal} {first : Char} {others : List Char}
    (same : Nat.toDigits 10 decimal.digits = first :: others)
    : decimal.scientific.toList
      = first
        :: ((if others = [] then [] else '.' :: others)
          ++ 'e' :: (decimal.exponent + others.length).repr.toList) := by
  rw [Float.Decimal.scientific, same]
  cases others with
  | nil => simp
  | cons second others => simp

/-- A literal in scientific notation is rounded from the number of its decimal. -/
theorem constant_scientific (dtype : DType) (negative : Bool) (decimal : Float.Decimal)
    : dtype.Constant ((if negative then "-" else "") ++ (decimal.scientific ++ dtype.mathSuffix))
        (dtype.format.withSign negative (dtype.format.round decimal.value)) := by
  have digits := Text.isDigit_toDigits decimal.digits
  have number : Nat.ofDigitChars 10 (Nat.toDigits 10 decimal.digits) 0 = decimal.digits :=
    Nat.ofDigitChars_ten_toDigits
  obtain ⟨first, others, same⟩ := Text.toDigits_eq_cons decimal.digits
  rw [same] at digits number
  have digit := digits first List.mem_cons_self
  have chars
      : (decimal.scientific ++ dtype.mathSuffix).toList
        = first
          :: ((if others = [] then [] else '.' :: others)
            ++ 'e' :: ((decimal.exponent + others.length).repr.toList
              ++ dtype.mathSuffix.toList)) := by
    rw [String.toList_append, toList_scientific same]
    simp
  have front
      : ∀ char ∈ (if others = [] then [] else '.' :: others : List Char),
          Code.isNumberChar char = true := by
    split
    · exact fun _ member => absurd member List.not_mem_nil
    · rw [List.forall_mem_cons]
      exact ⟨by decide, fun char member =>
        Code.isNumberChar_of_isDigit (digits char (List.mem_cons_of_mem _ member))⟩
  have constant
      : Code.readConstant
          (first
            :: ((if others = [] then [] else '.' :: others)
              ++ 'e' :: ((decimal.exponent + others.length).repr.toList
                ++ dtype.mathSuffix.toList)))
        = some (.floating dtype decimal.value) := by
    cases others with
    | nil =>
        have exponent : decimal.exponent + ([] : List Char).length = decimal.exponent := by simp
        rw [if_pos rfl, List.nil_append, exponent, Float.Decimal.value, ← number]
        exact Code.readConstant_exponent digits (List.cons_ne_nil _ _) _ _
    | cons second others =>
        have read
            := Code.readConstant_point
                (List.forall_mem_singleton.mpr digit) (List.cons_ne_nil first [])
                (fun _ member => digits _ (List.mem_cons_of_mem _ member)) (by simp)
                (Code.readExponent_repr (decimal.exponent + (second :: others).length)
                  (Code.not_isDigit_mathSuffix dtype))
        have shifted
            : (Nat.ofDigitChars 10 ([first] ++ second :: others) 0
                / 10 ^ (second :: others).length
                * 10 ^ (some (decimal.exponent + (second :: others).length)).getD 0 : ℚ)
              = decimal.value := by
          rw [List.singleton_append, number, Option.getD_some, zpow_add₀ (by decide),
            zpow_natCast, Float.Decimal.value]
          field_simp
        rw [shifted] at read
        exact read
  exact constant_signed negative decimal.value_nonneg chars digit
    (Code.lexes_exponent digit front dtype.all_mathSuffix_number _) constant

-----------------------------------------------------------------------------------------
-- Literals
-----------------------------------------------------------------------------------------

/-- A pattern of zero is written with one place after the point. -/
theorem integral_of_zero (dtype : DType) {bits : Nat} (zero : dtype.format.unsigned bits = 0)
    : (dtype.format.isIntegral bits && decide (dtype.format.wholePart bits < dtype.plainLimit))
      = true := by
  rw [isIntegral, wholePart, ← dtype.format.magnitude_unsigned, zero]
  cases dtype with
  | float32 => decide
  | float64 => decide

/-- The functions of the compiler for what is no number and for infinity are names. -/
theorem isName_builtin (dtype : DType) {name : String}
    (known : name ∈ ["__builtin_nan", "__builtin_inf"])
    : IsName (dtype.mathFunction name) := by
  rcases List.mem_pair.mp known with rfl | rfl
  all_goals
    cases dtype
    all_goals exact ⟨⟨by decide, by decide⟩, by decide, by decide⟩

/-- What is no number is written as a call with an empty text. -/
theorem constant_nan (dtype : DType)
    : dtype.Constant (dtype.mathFunction "__builtin_nan" ++ "(\"\")") dtype.format.nan := by
  have quotes : Forms Operator.tightest "\"\"" (.quoted ['\"', '\"']) := by
    refine ⟨_, ⟨rfl, ?_⟩, .quoted _, untyped_of_kind (by decide) _⟩
    intro separator member rest
    rfl
  have call := quotes.callOne (dtype.isName_builtin (by decide : "__builtin_nan" ∈ _))
  rw [String.append_assoc, String.append_assoc] at call
  exact ⟨_, call, by cases dtype <;> rfl⟩

theorem constant_infinity (dtype : DType) (negative : Bool)
    : dtype.Constant ((if negative then "-" else "") ++ dtype.mathFunction "__builtin_inf" ++ "()")
        (dtype.format.withSign negative dtype.format.infinity) := by
  have call := forms_call (dtype.isName_builtin (by decide : "__builtin_inf" ∈ _))
  have read
      : pattern? dtype (.call (dtype.mathFunction "__builtin_inf").toList .none)
        = some dtype.format.infinity :=
    if_pos rfl
  rw [String.append_assoc]
  cases negative with
  | false =>
      rw [if_neg Bool.false_ne_true, String.empty_append]
      exact ⟨_, call, read⟩
  | true =>
      rw [if_pos rfl]
      have opens : (dtype.mathFunction "__builtin_inf" ++ "()").toList.head? = some '_' := by
        cases dtype <;> rfl
      refine ⟨_, call.negate ?_, ?_⟩
      · rw [opens]
        simp
      · rw [pattern?, read, Option.map_some, opposite_of_lt dtype.format.infinity_lt]

/-- What an element is written as: itself, with one pattern for all that is no number. -/
def canonical (dtype : DType) (bits : UInt64) : Nat :=
  if dtype.format.isNaN (dtype.ofBinary64 bits).toNat then dtype.format.nan
  else (dtype.ofBinary64 bits).toNat

/-- A literal is a constant with the pattern of the element that it was made from. -/
theorem constant_literal (dtype : DType) (bits : UInt64)
    : dtype.Constant (dtype.literal bits) (dtype.canonical bits) := by
  have few := dtype.ofBinary64_lt bits
  rw [literal, canonical]
  -- From here on the literal depends on the pattern of the element only.
  generalize (dtype.ofBinary64 bits).toNat = pattern at few
  have signed := dtype.format.withSign_unsigned few
  split
  · exact dtype.constant_nan
  · next number =>
      have within := not_isNaN_iff.mp (Bool.eq_false_of_not_eq_true number)
      have back
          : dtype.format.round (dtype.format.magnitude pattern).value
            = dtype.format.unsigned pattern := by
        rw [← magnitude_unsigned]
        exact round_value dtype.format_regular within
      split
      · next infinite =>
          have whole := dtype.constant_infinity (dtype.format.isNegative pattern)
          rwa [← isInfinite_iff.mp infinite, signed] at whole
      · next bounded =>
          split
          · next integral =>
              rw [Bool.and_eq_true] at integral
              have whole := dtype.constant_onePlace integral.1
              rwa [back, signed] at whole
          · next other =>
              have finite : dtype.format.unsigned pattern < dtype.format.infinity :=
                Nat.lt_of_le_of_ne within (mt isInfinite_iff.mpr bounded)
              have positive : 0 < dtype.format.unsigned pattern :=
                Nat.pos_of_ne_zero (mt dtype.integral_of_zero other)
              have read := round_shortest dtype.format_regular finite positive
              rw [magnitude_unsigned] at read
              have whole :=
                dtype.constant_scientific (dtype.format.isNegative pattern)
                  (dtype.format.shortest (dtype.format.magnitude pattern))
              rwa [read, signed, ← String.append_assoc] at whole

/-- A literal of a finite element has a point or an exponent. -/
theorem mem_literal (dtype : DType) {bits : UInt64}
    (finite
      : dtype.format.unsigned (dtype.ofBinary64 bits).toNat < dtype.format.infinity)
    : '.' ∈ (dtype.literal bits).toList ∨ 'e' ∈ (dtype.literal bits).toList := by
  rw [literal]
  generalize (dtype.ofBinary64 bits).toNat = pattern at finite
  split
  · next nan => exact absurd finite (isNaN_iff.mp nan).not_gt
  split
  · next infinite => exact absurd (isInfinite_iff.mp infinite) finite.ne
  split
  · left
    simp [onePlace]
  · right
    simp [exponential, Float.Decimal.scientific]

/-- A literal stands for the wide number that it was made from, rounded once to the element type:
the same bits for whatever is a number, and no number for what is none. If it is finite, it has a
point or an exponent, so that it is no integer.
-/
theorem literal_reads_back (dtype : DType) (bits : UInt64)
    : ∃ pattern,
        Code.evaluate .initial (dtype.literal bits) = some (.floating dtype pattern)
        ∧ binary64.Converts dtype.format bits.toNat pattern
        ∧ (binary64.isNaN bits.toNat = false → pattern = (dtype.ofBinary64 bits).toNat)
        ∧ (dtype.format.unsigned pattern < dtype.format.infinity →
          '.' ∈ (dtype.literal bits).toList ∨ 'e' ∈ (dtype.literal bits).toList) := by
  have converts := dtype.converts_ofBinary64 bits
  have read := (dtype.constant_literal bits).evaluate_eq
  rw [canonical] at read
  cases nan : dtype.format.isNaN (dtype.ofBinary64 bits).toNat with
  | true =>
      rw [if_pos nan] at read
      have regular := dtype.format_regular
      rw [converts.isNaN_eq] at nan
      refine ⟨_, read, converts_of_isNaN nan (isNaN_nan regular), fun number => ?_,
        fun finite => ?_⟩
      · exact absurd (nan.symm.trans number) Bool.true_eq_false_eq_False
      · exact absurd finite (isNaN_iff.mp (isNaN_nan regular)).not_gt
  | false =>
      rw [nan, if_neg Bool.false_ne_true] at read
      exact ⟨_, read, converts, fun _ => rfl, dtype.mem_literal⟩

end DType

end LazyTensor
