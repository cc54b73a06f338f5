import LazyTensor.Kernel.Reading
import LazyTensor.Proofs.Kernel.Scopes

/-! Expressions as C text. What is printed for a number, an address or an expression is code that
declares nothing, and the names that it uses are those of its counters and its sources.
-/

namespace LazyTensor

open Code

namespace Code

-----------------------------------------------------------------------------------------
-- Words with numbers
-----------------------------------------------------------------------------------------

/-- A word that starts with a digit. -/
structure IsNumeral (text : String) : Prop where
  word : IsWord text
  digit : isNumber text = true

theorem IsNumeral.append {text other : String} (numeral : IsNumeral text)
    (all : other.toList.all isWordChar = true)
    : IsNumeral (text ++ other) := by
  refine ⟨numeral.word.append all, ?_⟩
  have digit := numeral.digit
  obtain ⟨first, rest, same⟩ := List.exists_cons_of_ne_nil
    (mt String.toList_eq_nil_iff.mp numeral.word.nonempty)
  rw [isNumber, same] at digit
  rw [isNumber, String.toList_append, same]
  exact digit

theorem isNumeral_ofList {digits : List Char} (nonempty : digits ≠ [])
    (all : ∀ char ∈ digits, char.isDigit = true)
    : IsNumeral (String.ofList digits) := by
  obtain ⟨first, rest, rfl⟩ := List.exists_cons_of_ne_nil nonempty
  refine ⟨⟨by simp, ?_⟩, ?_⟩
  · rw [String.toList_ofList, List.all_eq_true]
    exact fun char member => isWordChar_of_isDigit (all char member)
  · rw [isNumber, String.toList_ofList]
    exact all first List.mem_cons_self

theorem isDigit_of_mem_repr {number : Nat} {char : Char} (member : char ∈ number.repr.toList)
    : char.isDigit = true := by
  rw [Nat.toList_repr] at member
  exact Text.isDigit_toDigits number char member

theorem all_repr (number : Nat) : number.repr.toList.all isWordChar = true :=
  List.all_eq_true.mpr fun _ member => isWordChar_of_isDigit (isDigit_of_mem_repr member)

theorem isNumeral_repr (number : Nat) : IsNumeral number.repr := by
  rw [← String.ofList_toList (s := number.repr)]
  refine isNumeral_ofList ?_ fun _ member => isDigit_of_mem_repr member
  exact mt String.toList_eq_nil_iff.mp Nat.repr_ne_empty

/-- A word with a number behind it is no reserved one, if no reserved one has a digit there. -/
theorem not_isReserved_numbered {front : String} (word : IsWord front)
    (letter : isNumber front = false)
    (other
      : ∀ reserved ∈ typeWords ++ keywords ++ library,
          ((reserved.toList.drop front.toList.length).head?.any Char.isDigit) = false)
    (number : Nat)
    : ¬IsReserved (front ++ number.repr) := by
  obtain ⟨first, rest, same⟩ := List.exists_cons_of_ne_nil
    (mt String.toList_eq_nil_iff.mp word.nonempty)
  have plain : isNumber (front ++ number.repr) = false := by
    rw [isNumber, same] at letter
    rw [isNumber, String.toList_append, same]
    exact letter
  have digit := (isNumeral_repr number).digit
  have absent : front ++ number.repr ∉ typeWords ++ keywords ++ library := by
    intro member
    have behind := other _ member
    rw [String.toList_append, List.drop_left] at behind
    exact absurd (digit.symm.trans behind) (by decide)
  simp only [List.mem_append, not_or] at absent
  simp [IsReserved, plain, absent]

variable {names : List String} {text other : String}

theorem IsNumeral.uses (numeral : IsNumeral text) : Uses names text :=
  .number numeral.word numeral.digit

/-- What stands between the parts of expressions, or in front of them. -/
def operators : List String :=
  [" >> ", " += ", " + ", " - ", " * ", " / ", " = ", ", ", ".", "-"]

theorem joins_of_operator (known : text ∈ operators) : Joins names text := by
  have double {first second : Char} (known : first ∈ Reader.joints)
      (known' : second ∈ Reader.joints) (seals : Seals text [.mark first, .mark second])
      (parts : Parts text)
      : Joins names text :=
    ⟨_, seals, parts, (Quiet.joint known).append (.joint known')⟩
  simp only [operators, List.mem_cons, List.not_mem_nil, or_false] at known
  rcases known with rfl | rfl | known
  · exact double (by decide) (by decide) (fun _ => rfl) ⟨_, rfl, rfl⟩
  · exact double (by decide) (by decide) (fun _ => rfl) ⟨_, rfl, rfl⟩
  · rcases known with rfl | rfl | rfl | rfl | rfl | rfl | rfl | rfl
    all_goals exact joins_of_mem (by decide) (fun _ => rfl) ⟨_, rfl, rfl⟩

/-- Types to which expressions are converted. -/
def casts : List String := ["(float)", "(double)", "(unsigned long long)"]

theorem joins_of_cast (known : text ∈ casts) : Joins names text := by
  have converts (types : List String) (known : ∀ type ∈ types, type ∈ typeWords)
      (seals : Seals text (.mark '(' :: types.map .word ++ [.mark ')'])) (parts : Parts text)
      : Joins names text :=
    ⟨_, seals, parts, .cast names known⟩
  simp only [casts, List.mem_cons, List.not_mem_nil, or_false] at known
  rcases known with rfl | rfl | rfl
  · exact converts ["float"] (by decide) (fun _ => rfl) ⟨_, rfl, rfl⟩
  · exact converts ["double"] (by decide) (fun _ => rfl) ⟨_, rfl, rfl⟩
  · exact converts ["unsigned", "long", "long"] (by decide) (fun _ => rfl) ⟨_, rfl, rfl⟩

theorem Uses.signed (uses : Uses names text) (negative : Bool)
    : Uses names ((if negative then "-" else "") ++ text) := by
  cases negative with
  | true => exact .behind (joins_of_operator (by decide)) uses
  | false => simpa using uses

end Code

-----------------------------------------------------------------------------------------
-- Numbers
-----------------------------------------------------------------------------------------

/-- The suffix of a literal is part of its last word. -/
theorem DType.all_mathSuffix (dtype : DType)
    : dtype.mathSuffix.toList.all isWordChar = true := by
  cases dtype <;> decide

/-- Functions that have a variant for each element type. -/
def mathNames : List String :=
  ["sin", "sqrt", "exp2", "log2", "fmax", "__builtin_nan", "__builtin_inf"]

/-- The variants of functions are words of the library. -/
theorem DType.uses_mathFunction (dtype : DType) (names : List String) {name : String}
    (known : name ∈ mathNames)
    : Uses names (dtype.mathFunction name) := by
  have words
      : ∀ name ∈ mathNames, ∀ type ∈ DType.all,
          (type.mathFunction name).toList.all isWordChar = true
          ∧ type.mathFunction name ∈ library := by
    decide
  obtain ⟨all, member⟩ := words name known dtype (by cases dtype <;> decide)
  refine .function ⟨?_, all⟩ member
  intro empty
  rw [empty] at member
  exact absurd member (by decide)

/-- A call of a function of an element type. -/
theorem DType.uses_call (dtype : DType) {names : List String} {name argument : String}
    (known : name ∈ mathNames) (uses : Uses names argument)
    : Uses names (dtype.mathFunction name ++ "(" ++ argument ++ ")") := by
  have call := (dtype.uses_mathFunction names known).before uses.parentheses
  simpa only [String.append_assoc] using call

/-- An exponent behind a numeral, with a suffix. -/
theorem Code.IsNumeral.uses_exponent {text : String} (numeral : IsNumeral text) (exponent : Int)
    (dtype : DType) (names : List String)
    : Uses names (text ++ "e" ++ exponent.repr ++ dtype.mathSuffix) := by
  have marked : IsNumeral (text ++ "e") := numeral.append (by decide)
  cases exponent with
  | ofNat power =>
      exact ((marked.append (all_repr _)).append
        dtype.all_mathSuffix).uses
  | negSucc power =>
      have digits := (isNumeral_repr (power + 1)).append dtype.all_mathSuffix
      have joined : Uses names (text ++ "e" ++ "-" ++ ((power + 1).repr ++ dtype.mathSuffix)) :=
        marked.uses.join (joins_of_operator (by decide)) digits.uses
      simpa only [Int.repr, String.append_assoc] using joined

/-- A decimal with an exponent is read as one number, whatever its digits. -/
theorem Float.Decimal.uses_scientific (decimal : Decimal) (dtype : DType) (names : List String)
    : Uses names (decimal.scientific ++ dtype.mathSuffix) := by
  have digit := Text.isDigit_toDigits decimal.digits
  have leading : IsNumeral (String.ofList ((Nat.toDigits 10 decimal.digits).take 1)) := by
    refine isNumeral_ofList ?_ fun char member => digit char (List.mem_of_mem_take member)
    simp [Nat.toDigits_ne_nil]
  rw [scientific]
  split
  · rw [String.append_empty]
    exact leading.uses_exponent _ dtype names
  · next more =>
      have fraction : IsNumeral (String.ofList ((Nat.toDigits 10 decimal.digits).drop 1)) :=
        isNumeral_ofList (by simpa using more)
          fun char member => digit char (List.mem_of_mem_drop member)
      have point : Joins names "." := joins_of_operator (by decide)
      have joined (exponent : Int) :=
        leading.uses.join point (fraction.uses_exponent exponent dtype names)
      simpa only [String.append_assoc] using joined _

namespace Float.Format

/-- A finite number is read as its sign and digits, with the suffix in the last word. -/
theorem uses_exponential (format : Format) (bits : Nat) (dtype : DType) (names : List String)
    : Uses names (format.exponential bits ++ dtype.mathSuffix) := by
  have digits := (format.shortest (format.magnitude bits)).uses_scientific dtype names
  rw [exponential, String.append_assoc]
  exact digits.signed (format.isNegative bits)

theorem uses_onePlace (format : Format) (bits : Nat) (dtype : DType) (names : List String)
    : Uses names (format.onePlace bits ++ dtype.mathSuffix) := by
  have whole := isNumeral_repr (format.wholePart bits)
  have place : IsNumeral ("0" ++ dtype.mathSuffix) :=
    IsNumeral.append ⟨⟨by decide, by decide⟩, by decide⟩ dtype.all_mathSuffix
  have point : Joins names "." := joins_of_operator (by decide)
  have signed := (whole.uses.join point place.uses).signed (format.isNegative bits)
  have same : ".0" = "." ++ "0" := rfl
  rw [onePlace, same]
  simpa only [String.append_assoc] using signed

end Float.Format

/-- A literal uses no names. -/
theorem DType.uses_literal (dtype : DType) (bits : UInt64) (names : List String)
    : Uses names (dtype.literal bits) := by
  have joins_nil {text : String} (seals : Seals text [.mark '(', .mark ')']) (parts : Parts text)
      : Joins names text :=
    ⟨_, seals, parts, Quiet.parentheses (.nil names)⟩
  have nan : Uses names (dtype.mathFunction "__builtin_nan" ++ "(\"\")") :=
    (dtype.uses_mathFunction names (by decide)).before (joins_nil (fun _ => rfl) ⟨_, rfl, rfl⟩)
  have infinity : Uses names (dtype.mathFunction "__builtin_inf" ++ "()") :=
    (dtype.uses_mathFunction names (by decide)).before (joins_nil (fun _ => rfl) ⟨_, rfl, rfl⟩)
  rw [literal]
  split
  · exact nan
  split
  · rw [String.append_assoc]
    exact infinity.signed _
  split
  · exact Float.Format.uses_onePlace _ _ dtype names
  · exact Float.Format.uses_exponential _ _ dtype names

-----------------------------------------------------------------------------------------
-- Addresses and expressions
-----------------------------------------------------------------------------------------

namespace Kernel

theorem isWord_counterName (counter : Nat) : IsWord (counterName counter) :=
  IsWord.append ⟨by decide, by decide⟩ (all_repr _)

theorem not_isReserved_counterName (counter : Nat) : ¬IsReserved (counterName counter) :=
  not_isReserved_numbered ⟨by decide, by decide⟩ (by decide) (by decide) counter

theorem counterName_injective : Function.Injective counterName := by
  intro left right same
  exact Text.repr_injective ((String.append_right_inj _).mp same)

theorem isWord_sourceName (source : Nat) : IsWord (sourceName source) :=
  IsWord.append ⟨by decide, by decide⟩ (all_repr _)

theorem not_isReserved_sourceName (source : Nat) : ¬IsReserved (sourceName source) :=
  not_isReserved_numbered ⟨by decide, by decide⟩ (by decide) (by decide) source

variable {names : List String}

theorem uses_counterName {counter : Nat} (known : counterName counter ∈ names)
    : Uses names (counterName counter) :=
  .name (isWord_counterName counter) (not_isReserved_counterName counter) known

theorem Term.uses_coordinate {term : Term} (known : counterName term.counter ∈ names)
    : Uses names term.coordinate := by
  have plus : Joins names " + " := joins_of_operator (by decide)
  rw [coordinate]
  split
  · exact uses_counterName known
  · have moved := (uses_counterName known).join plus (isNumeral_repr term.offset).uses
    simpa only [String.append_assoc] using moved.parentheses.uses

/-- A sum of texts, by induction on them. -/
theorem uses_sum {part : String} {parts : List String}
    (uses : ∀ text ∈ part :: parts, Uses names text)
    : Uses names (" + ".intercalate (part :: parts)) := by
  have plus : Joins names " + " := joins_of_operator (by decide)
  induction parts generalizing part with
  | nil => simpa using uses part List.mem_cons_self
  | cons next rest ih =>
      obtain ⟨first, others⟩ := List.forall_mem_cons.mp uses
      rw [String.intercalate_cons_cons]
      exact first.join plus (ih others)

/-- An index uses what its coordinates use. -/
theorem uses_index {terms : List (String × Nat)} (uses : ∀ term ∈ terms, Uses names term.1)
    : Uses names (Spelling.index terms) := by
  have times : Joins names " * " := joins_of_operator (by decide)
  rw [Spelling.index]
  split
  · exact (isNumeral_repr 0).uses
  · next moving =>
      obtain ⟨part, rest, same⟩ := List.exists_cons_of_ne_nil (mt List.isEmpty_iff.mpr moving)
      rw [same]
      refine uses_sum ?_
      rw [← same]
      intro part member
      obtain ⟨⟨coordinate, stride⟩, kept, rfl⟩ := List.mem_map.mp member
      have own := uses _ (List.mem_of_mem_filter kept)
      dsimp only
      split
      · exact own
      · exact own.join times (isNumeral_repr stride).uses

/-- An address uses its counters. -/
theorem Address.uses_text {address : Address} (known : address.names ⊆ names)
    : Uses names address.text := by
  refine uses_index ?_
  intro pair member
  obtain ⟨term, inside, rfl⟩ := List.mem_map.mp member
  exact Term.uses_coordinate (known (List.mem_map_of_mem inside))

/-- An element of the output uses the output and the counters of its address. -/
theorem Address.uses_output {address : Address} (output : "out" ∈ names)
    (known : address.names ⊆ names)
    : Uses names address.output := by
  have array : Uses names "out" := .name ⟨by decide, by decide⟩ (by decide) output
  have element := array.before (Address.uses_text known).brackets
  have opened : "out[" = "out" ++ "[" := rfl
  rw [Address.output, opened]
  simpa only [String.append_assoc] using element

/-- A call of the generator uses the counter besides it. -/
theorem uses_generator (seed : UInt64) {counter : Nat}
    (known : ["kiln_splitmix64", counterName counter] ⊆ names)
    : Uses names
        ("kiln_splitmix64(" ++ seed.toNat.repr ++ "ULL, (unsigned long long)"
          ++ counterName counter ++ ")") := by
  obtain ⟨generator, own⟩ := List.cons_subset.mp known
  have comma : Joins names ", " := joins_of_operator (by decide)
  have converts : Joins names "(unsigned long long)" := joins_of_cast (by decide)
  have function : Uses names "kiln_splitmix64" :=
    .name ⟨by decide, by decide⟩ (by decide) generator
  have suffix : "ULL".toList.all isWordChar = true := by decide
  have start := (isNumeral_repr seed.toNat).append suffix
  have index := (uses_counterName (own List.mem_cons_self)).behind converts
  have call := function.before (start.uses.join comma index).parentheses
  have opened : "kiln_splitmix64(" = "kiln_splitmix64" ++ "(" := rfl
  have between : "ULL, (unsigned long long)" = "ULL" ++ ", " ++ "(unsigned long long)" := rfl
  rw [opened, between]
  simpa only [String.append_assoc] using call

/-- The leading bits of a word, converted and scaled. -/
theorem uses_leading {cast word : String} (known : cast ∈ casts) (uses : Uses names word)
    {bits power : String} (count : IsNumeral bits) (exponent : IsNumeral power)
    : Uses names
        (cast ++ ("(" ++ word ++ " >> " ++ bits ++ ")") ++ " * " ++ "0x1" ++ "." ++ "0p" ++ "-"
          ++ power) := by
  have operator {text : String} (member : text ∈ operators) : Joins names text :=
    joins_of_operator member
  have shift : Joins names " >> " := operator (by decide)
  have times : Joins names " * " := operator (by decide)
  have point : Joins names "." := operator (by decide)
  have sign : Joins names "-" := operator (by decide)
  have one : IsNumeral "0x1" := ⟨⟨by decide, by decide⟩, by decide⟩
  have half : IsNumeral "0p" := ⟨⟨by decide, by decide⟩, by decide⟩
  have shifted := (uses.join shift count.uses).parentheses
  have converted := shifted.uses.behind (joins_of_cast known)
  have scaled := (converted.join times one.uses).join point (half.uses.join sign exponent.uses)
  simpa only [String.append_assoc] using scaled

/-- A draw uses its counter and the generator. -/
theorem uses_drawText (dtype : DType) (seed : UInt64) {counter : Nat}
    (known : ["kiln_splitmix64", counterName counter] ⊆ names)
    : Uses names (drawText dtype seed counter) := by
  have word := uses_generator seed known
  cases dtype with
  | float32 =>
      have count : IsNumeral "40" := ⟨⟨by decide, by decide⟩, by decide⟩
      have exponent : IsNumeral "24f" := ⟨⟨by decide, by decide⟩, by decide⟩
      have converts : "(float)" ∈ casts := by decide
      have opened : "(float)(" = "(float)" ++ "(" := rfl
      have behind
          : " >> 40) * 0x1.0p-24f"
            = " >> " ++ "40" ++ ")" ++ " * " ++ "0x1" ++ "." ++ "0p" ++ "-" ++ "24f" :=
        rfl
      have draw := uses_leading converts word count exponent
      simp only [drawText, opened, behind]
      simpa only [String.append_assoc] using draw
  | float64 =>
      have count : IsNumeral "11" := ⟨⟨by decide, by decide⟩, by decide⟩
      have exponent : IsNumeral "53" := ⟨⟨by decide, by decide⟩, by decide⟩
      have converts : "(double)" ∈ casts := by decide
      have opened : "(double)(" = "(double)" ++ "(" := rfl
      have behind
          : " >> 11) * 0x1.0p-53"
            = " >> " ++ "11" ++ ")" ++ " * " ++ "0x1" ++ "." ++ "0p" ++ "-" ++ "53" :=
        rfl
      have draw := uses_leading converts word count exponent
      simp only [drawText, opened, behind]
      simpa only [String.append_assoc] using draw

theorem uses_unary (dtype : DType) (op : UnaryMap) {operand : String}
    (uses : Uses names operand)
    : Uses names (Spelling.unary dtype op operand) := by
  have sign : Joins names "-" := joins_of_operator (by decide)
  have same : "(-" = "(" ++ "-" := rfl
  cases op with
  | neg =>
      rw [Spelling.unary, same]
      simpa only [String.append_assoc] using (uses.behind sign).parentheses.uses
  | sin | sqrt | exp2 | log2 => exact dtype.uses_call (by decide) uses

theorem uses_binary (dtype : DType) (op : BinaryMap) {left right : String}
    (usesLeft : Uses names left) (usesRight : Uses names right)
    : Uses names (Spelling.binary dtype op left right) := by
  have infixed {operator : String} (known : operator ∈ operators)
      : Uses names ("(" ++ left ++ operator ++ right ++ ")") := by
    have parts := usesLeft.join (joins_of_operator known) usesRight
    simpa only [String.append_assoc] using parts.parentheses.uses
  have comma : Joins names ", " := joins_of_operator (by decide)
  cases op with
  | add | sub | mul | matmul | div => exact infixed (by decide)
  | max =>
      have known : "fmax" ∈ mathNames := by decide
      have call := dtype.uses_call known (usesLeft.join comma usesRight)
      simpa only [Spelling.binary, String.append_assoc] using call

/-- An expression uses its names, by induction on the expression. -/
theorem Expr.uses_text (dtype : DType) {expr : Expr} (known : expr.names ⊆ names)
    : Uses names (expr.text dtype) := by
  induction expr with
  | constant bits => exact dtype.uses_literal bits names
  | draw seed counter => exact uses_drawText dtype seed known
  | read source address =>
      obtain ⟨own, counters⟩ := List.cons_subset.mp known
      have array : Uses names (sourceName source) :=
        .name (isWord_sourceName source) (not_isReserved_sourceName source) own
      have element := array.before (Address.uses_text counters).brackets
      simpa only [text, sourceName, String.append_assoc] using element
  | unary op operand ih => exact uses_unary dtype op (ih known)
  | binary op left right ihLeft ihRight =>
      obtain ⟨knownLeft, knownRight⟩ := List.append_subset.mp known
      exact uses_binary dtype op (ihLeft knownLeft) (ihRight knownRight)

end Kernel

end LazyTensor
