import LazyTensor.Proofs.Code.Numerals
import LazyTensor.Proofs.Kernel.SourceUnit

/-! The limits of loops in C text. A word right behind a mark for less is what a counter is compared
with. The text of a kernel has such marks in the heads of its loops only, so its limits are the
bounds of the program, in the order of the loops. A limit is a constant of the type of the counters
unless it is too large for that type.
-/

namespace LazyTensor

open Code

namespace Code

-----------------------------------------------------------------------------------------
-- Limits
-----------------------------------------------------------------------------------------

/-- The words right behind a mark for less. -/
def limits : List Token → List String
  | [] => []
  | .mark '<' :: .word text :: rest => text :: limits rest
  | _ :: rest => limits rest

/-- Tokens with some limits, whatever follows. -/
def Limits (list : List Token) (texts : List String) : Prop :=
  ∀ rest, limits (list ++ rest) = texts ++ limits rest

/-- The limits of tokens are constants of the type that counters have. -/
def Representable (list : List Token) : Prop :=
  ∀ text ∈ limits list, ∃ number, readConstant text.toList = some (.signed number)

variable {list more : List Token} {texts others : List String} {text other : String}

theorem Limits.append (first : Limits list texts) (second : Limits more others)
    : Limits (list ++ more) (texts ++ others) := by
  intro rest
  rw [List.append_assoc, first, second, List.append_assoc]

theorem Limits.limits_eq (own : Limits list texts) : limits list = texts := by
  have whole := own []
  rwa [List.append_nil, show limits [] = [] from rfl, List.append_nil] at whole

/-- Without a mark for less there is no limit, by induction on the tokens. -/
theorem Limits.of_notMem (absent : Token.mark '<' ∉ list) : Limits list [] := by
  intro rest
  induction list with
  | nil => rfl
  | cons token list ih =>
      rw [List.mem_cons, not_or] at absent
      rw [List.cons_append, limits]
      · exact ih absent.2
      · intro text behind same
        exact absurd same.symm absent.1

/-- The marks of a text are among its characters, by induction on the characters. -/
theorem mem_of_mem_scan {mode : Mode} {word chars : List Char} {char : Char}
    (member : Token.mark char ∈ scan mode word chars)
    : char ∈ chars := by
  have words (word : List Char) : Token.mark char ∉ ofWord word := by
    cases word with
    | nil => exact List.not_mem_nil
    | cons => simp [ofWord]
  induction chars generalizing mode word with
  | nil =>
      cases mode with
      | code => exact absurd member (words word)
      | directive | quoted => cases member
  | cons first rest ih =>
      cases mode with
      | directive | quoted => exact List.mem_cons_of_mem _ (ih member)
      | code =>
          rw [scan] at member
          split at member
          · exact List.mem_cons_of_mem _ (ih member)
          · rw [List.mem_append, List.mem_append] at member
            rcases member with (inWord | mark) | behind
            · exact absurd inWord (words word)
            · rw [ofMark] at mark
              split_ifs at mark
              · cases mark
              · cases List.mem_singleton.mp mark
              · cases List.mem_singleton.mp mark
                exact List.mem_cons_self
            · exact List.mem_cons_of_mem _ (ih behind)

-----------------------------------------------------------------------------------------
-- Texts without a limit
-----------------------------------------------------------------------------------------

/-- A text without a mark for less. -/
def Limitless (text : String) : Prop := '<' ∉ text.toList

instance : DecidablePred Limitless := fun _ => inferInstanceAs (Decidable (¬_))

theorem Limitless.limits (free : Limitless text) : Limits (tokens text) [] :=
  .of_notMem fun member => free (mem_of_mem_scan member)

@[simp]
theorem limitless_append : Limitless (text ++ other) ↔ Limitless text ∧ Limitless other := by
  rw [Limitless, String.toList_append, List.mem_append, not_or]
  rfl

theorem limitless_of_all (all : text.toList.all isWordChar = true) : Limitless text := by
  intro member
  exact absurd (List.all_eq_true.mp all _ member) (by decide)

theorem limitless_ofList {digits : List Char} (all : ∀ char ∈ digits, char.isDigit = true)
    : Limitless (String.ofList digits) := by
  refine limitless_of_all ?_
  rw [String.toList_ofList, List.all_eq_true]
  exact fun char member => isWordChar_of_isDigit (all char member)

@[simp]
theorem limitless_repr (number : Nat) : Limitless number.repr := limitless_of_all (all_repr number)

@[simp]
theorem limitless_intRepr (number : Int) : Limitless number.repr := by
  cases number with
  | ofNat number => exact limitless_repr number
  | negSucc number => simp +decide [Int.repr]

/-- Texts in a row, by induction on them. -/
theorem limitless_intercalate {joint : String} (between : Limitless joint)
    (each : ∀ text ∈ texts, Limitless text)
    : Limitless (joint.intercalate texts) := by
  induction texts with
  | nil => simp +decide
  | cons first rest ih =>
      obtain ⟨own, others⟩ := List.forall_mem_cons.mp each
      cases rest with
      | nil => simpa using own
      | cons second rest =>
          rw [String.intercalate_cons_cons]
          simp [own, between, ih others]

/-- Numbers that are limits are representable if and only if all of them fit the type. -/
theorem representable_iff {numbers : List Nat} (same : limits list = numbers.map Nat.repr)
    : Representable list ↔ ∀ number ∈ numbers, number < 2 ^ 63 := by
  rw [Representable, same, List.forall_mem_map]
  refine forall₂_congr fun number _ => ?_
  rw [Nat.toList_repr, readConstant_toDigits]
  split
  · next few => exact iff_of_true ⟨number, rfl⟩ few
  · next many => exact iff_of_false (by simp) many

end Code

-----------------------------------------------------------------------------------------
-- Expressions
-----------------------------------------------------------------------------------------

@[simp]
theorem DType.limitless_mathSuffix (dtype : DType) : Limitless dtype.mathSuffix :=
  limitless_of_all dtype.all_mathSuffix

@[simp]
theorem DType.limitless_cType (dtype : DType) : Limitless dtype.cType := by cases dtype <;> decide

@[simp]
theorem DType.limitless_mathFunction (dtype : DType) {name : String}
    : Limitless (dtype.mathFunction name) ↔ Limitless name := by
  simp [mathFunction]

theorem limitless_sign (negative : Bool) : Limitless (if negative then "-" else "") := by
  cases negative <;> decide

theorem Float.Decimal.limitless_scientific (decimal : Decimal) : Limitless decimal.scientific := by
  have digit := Text.isDigit_toDigits decimal.digits
  have leading : Limitless (String.ofList ((Nat.toDigits 10 decimal.digits).take 1)) :=
    limitless_ofList fun char member => digit char (List.mem_of_mem_take member)
  have fraction : Limitless (String.ofList ((Nat.toDigits 10 decimal.digits).drop 1)) :=
    limitless_ofList fun char member => digit char (List.mem_of_mem_drop member)
  rw [scientific]
  split
  · simp +decide only [limitless_append, leading, limitless_intRepr]
  · simp +decide only [limitless_append, leading, fraction, limitless_intRepr]

/-- Literals have no limits. -/
theorem DType.limitless_literal (dtype : DType) (bits : UInt64)
    : Limitless (dtype.literal bits) := by
  rw [literal]
  split
  · simp +decide
  split
  · simp +decide [limitless_sign]
  split
  · simp +decide [Float.Format.onePlace, limitless_sign]
  · simp [Float.Format.exponential, limitless_sign, Float.Decimal.limitless_scientific]

namespace Kernel

@[simp]
theorem limitless_counterName (counter : Nat) : Limitless (counterName counter) :=
  limitless_of_all (isWord_counterName counter).all

theorem Address.limitless_text (address : Address) : Limitless address.text := by
  have free (term : Term) : Limitless term.coordinate := by
    rw [Term.coordinate]
    split <;> simp +decide
  rw [text, Spelling.index]
  split
  · decide
  · refine limitless_intercalate (by decide) ?_
    intro part member
    obtain ⟨⟨coordinate, stride⟩, kept, rfl⟩ := List.mem_map.mp member
    obtain ⟨term, _, same⟩ := List.mem_map.mp (List.mem_of_mem_filter kept)
    obtain ⟨rfl, rfl⟩ := Prod.mk.inj same
    dsimp only
    split <;> simp +decide [free]

theorem limitless_drawText (dtype : DType) (seed : UInt64) (counter : Nat)
    : Limitless (drawText dtype seed counter) := by
  cases dtype <;> simp +decide [drawText]

/-- Expressions have no limits, by induction on them. -/
theorem Expr.limitless_text (dtype : DType) (expr : Expr) : Limitless (expr.text dtype) := by
  induction expr with
  | constant bits => exact dtype.limitless_literal bits
  | draw seed counter => exact limitless_drawText dtype seed counter
  | read source address => simp +decide [text, address.limitless_text]
  | unary op operand ih => cases op <;> simp +decide [text, Spelling.unary, ih]
  | binary op left right ihLeft ihRight =>
      cases op <;> simp +decide [text, Spelling.binary, ihLeft, ihRight]

theorem limitless_accumulate (dtype : DType) (op : Reduction) {total operand : String}
    (freeTotal : Limitless total) (freeOperand : Limitless operand)
    : Limitless (Spelling.accumulate dtype op total operand) := by
  cases op <;> simp +decide [Spelling.accumulate, freeTotal, freeOperand]

-----------------------------------------------------------------------------------------
-- Lines
-----------------------------------------------------------------------------------------

/-- The bounds of the loops of a statement, in the order in which they are opened. -/
def Stmt.bounds : Stmt → List Nat
  | seq first second => first.bounds ++ second.bounds
  | loop _ bound body => bound :: body.bounds
  | skip | store .. | fold .. | startSum _ | addProduct .. | storeSum _ => []

/-- The head of a loop has one limit. -/
theorem limits_loopHead (counter bound : Nat)
    : Limits (tokens (Writer.loopHead counter bound)) [bound.repr] := by
  intro rest
  rw [tokens_loopHead]
  rfl

/-- One more line adds its limits. -/
theorem limits_line {writer : Writer} {statement : String} {texts others : List String}
    (written : Limits (writer.lines.flatMap tokens) texts)
    (own : Limits (tokens statement) others)
    : Limits ((writer.line statement).lines.flatMap tokens) (texts ++ others) := by
  rw [tokens_line]
  exact written.append own

/-- The limits in the lines of a statement are the bounds of its loops, by induction on the
statement.
-/
theorem limits_write (dtype : DType) {body : Stmt} {writer : Writer} {texts : List String}
    (written : Limits (writer.lines.flatMap tokens) texts)
    : Limits ((body.write dtype writer).lines.flatMap tokens)
        (texts ++ body.bounds.map Nat.repr) := by
  have output (address : Address) : Limitless address.output := by
    simp +decide [Address.output, address.limitless_text]
  induction body generalizing writer texts with
  | skip => simpa [Stmt.bounds, Stmt.write] using written
  | seq first second ihFirst ihSecond =>
      have both := ihSecond (ihFirst written)
      rwa [List.append_assoc, ← List.map_append] at both
  | loop counter bound body ih =>
      have opened
          : Limits ((writer.enter counter bound).lines.flatMap tokens) (texts ++ [bound.repr]) :=
        limits_line written (limits_loopHead counter bound)
      have brace : Limitless "\x7d" := by decide
      have whole
          : Limits ((body.write dtype (writer.enter counter bound)).closeLoop.lines.flatMap tokens)
              (texts ++ [bound.repr] ++ body.bounds.map Nat.repr ++ []) :=
        limits_line (ih opened) brace.limits
      rw [List.append_nil, List.append_assoc] at whole
      exact whole
  | store address value =>
      have free : Limitless (address.output ++ " = " ++ value.text dtype ++ ";") := by
        simp +decide [output, value.limitless_text]
      exact limits_line written free.limits
  | fold op address value =>
      have free := limitless_accumulate dtype op (output address) (value.limitless_text dtype)
      exact limits_line written free.limits
  | startSum value =>
      have free : Limitless (dtype.cType ++ " acc = " ++ value.text dtype ++ ";") := by
        simp +decide [value.limitless_text]
      exact limits_line written free.limits
  | addProduct left right =>
      have free : Limitless ("acc += " ++ left.text dtype ++ " * " ++ right.text dtype ++ ";") := by
        simp +decide [left.limitless_text, right.limitless_text]
      exact limits_line written free.limits
  | storeSum address =>
      have free : Limitless (address.output ++ " = acc;") := by
        simp +decide [output]
      exact limits_line written free.limits

/-- What stands in front of a kernel has no limits: the mark in a directive is no code. -/
theorem limits_preamble (kind : OpKind) : Limits ((preamble kind).flatMap tokens) [] := by
  have generator : ∀ line ∈ generatorText, Limitless line := by
    simp only [generatorText, List.forall_mem_cons, Limitless]
    repeat rw [String.toList_ofList]
    decide
  refine .of_notMem ?_
  rw [preamble, List.flatMap_append, List.mem_append, not_or]
  refine ⟨by decide, ?_⟩
  split
  · rw [List.mem_flatMap]
    rintro ⟨line, member, mark⟩
    rcases List.mem_append.mp member with known | last
    · exact generator line known (mem_of_mem_scan mark)
    · obtain rfl := List.mem_singleton.mp last
      cases mark
  · exact List.not_mem_nil

theorem limitless_signature {name : String} (word : IsWord name) (dtype : DType) (arity : Nat)
    : Limitless (signature name dtype arity) := by
  have each : ∀ parameter ∈ parameters dtype arity, Limitless parameter := by
    simp +decide [parameters]
  have comma : Limitless ", " := by decide
  have parameters := limitless_intercalate comma each
  simp +decide [signature, limitless_of_all word.all, parameters]

/-- The limits of the text of a unit are the bounds of its program. -/
theorem limits_unit (task : Task) (program : Stmt)
    : limits (tokens (task.unit program).source) = program.bounds.map Nat.repr := by
  have head :=
    limitless_signature task.isIdentifier_kernelName.isWord task.target.dtype task.sources.length
  have start : Limits (Writer.start.lines.flatMap tokens) [] := fun _ => rfl
  have body : Limits ((program.lines task.target.dtype).flatMap tokens) _ :=
    limits_write task.target.dtype start
  have brace : Limits (["\x7d", ""].flatMap tokens) [] := .of_notMem (by decide)
  have whole := ((limits_preamble task.kind).append (head.limits.append body)).append brace
  rw [Task.unit, tokens_lines, List.flatMap_append, List.flatMap_append, List.flatMap_cons]
  simpa using whole.limits_eq

end Kernel

end LazyTensor
