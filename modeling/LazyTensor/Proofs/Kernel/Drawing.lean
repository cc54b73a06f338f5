import LazyTensor.Kernel.Reading
import LazyTensor.Kernel.SourceUnit
import LazyTensor.Proofs.Code.Functions
import LazyTensor.Proofs.Kernel.Indexing
import LazyTensor.Proofs.Random.Uniform

/-! Draws in kernels. The generator that a random kernel carries along is read as a C function, and
it gives the words of the stream. The expression that a draw is printed as calls it with the seed
and the counter of the loop; what it evaluates to is the draw of the host, bit for bit.
-/

namespace LazyTensor.Kernel

open Code Float.Format

-----------------------------------------------------------------------------------------
-- The generator
-----------------------------------------------------------------------------------------

theorem read_generator
    : Definition.read ("\n".intercalate generatorText).toList = some generator := by
  rw [String.toList_intercalate]
  -- The characters of the lines are put down first: decoding the texts is what takes time.
  simp only [generatorText, List.map_cons, List.map_nil]
  repeat rw [String.toList_ofList]
  rfl

/-- The generator gives the words of the streams. -/
theorem call_generator (seed index : UInt64)
    : generator.call [seed, index] = some (.unsigned (Random.word seed index)) := by
  rfl

-----------------------------------------------------------------------------------------
-- The expression
-----------------------------------------------------------------------------------------

/-- The counter of a loop with its value. -/
def counting (counter : Nat) (value : Int64) (name : List Char) : Option Value :=
  if name = (counterName counter).toList then some (.signed value) else none

/-- A seed with the suffix of its type is one number. -/
theorem forms_seed (seed : UInt64)
    : Forms Operator.tightest (seed.toNat.repr ++ "ULL")
        (.number (Nat.toDigits 10 seed.toNat ++ ['U', 'L', 'L'])) := by
  have chars
      : (seed.toNat.repr ++ "ULL").toList = Nat.toDigits 10 seed.toNat ++ ['U', 'L', 'L'] := by
    simp
  have digits := Text.isDigit_toDigits seed.toNat
  have all : (Nat.toDigits 10 seed.toNat ++ ['U', 'L', 'L']).all isWordChar = true := by
    rw [List.all_append, Bool.and_eq_true, List.all_eq_true]
    exact ⟨fun char member => isWordChar_of_isDigit (digits char member), by decide⟩
  rw [← chars]
  refine forms_number ?_
  rw [chars]
  obtain ⟨first, others, same⟩ := Text.toDigits_eq_cons seed.toNat
  rw [same] at all digits ⊢
  have single := lexes_word all
  rwa [if_pos (digits first List.mem_cons_self)] at single

/-- The call of the generator, as it is printed. -/
theorem forms_called (seed : UInt64) (counter : Nat)
    : Forms Operator.tightest
        ("kiln_splitmix64(" ++ seed.toNat.repr ++ "ULL, (unsigned long long)" ++ counterName counter
          ++ ")")
        (called seed counter) := by
  have unsigned : Lexes "unsigned long long".toList CType.unsigned.words :=
    lexes_of_unquoted (by decide) rfl
  have named : IsName "kiln_splitmix64" := ⟨⟨by decide, by decide⟩, by decide, by decide⟩
  have index := (forms_name (isName_counterName counter)).cast unsigned
  have whole := (forms_seed seed).callTwo index named
  have opening : "kiln_splitmix64" ++ "(" = "kiln_splitmix64(" := by rfl
  have between : "ULL" ++ (", " ++ ("(" ++ ("unsigned long long" ++ ")")))
      = "ULL, (unsigned long long)" := by
    rfl
  rw [opening] at whole
  rw [← between, called]
  simpa only [String.append_assoc] using whole

/-- A draw is a product of the shifted word and the scale. -/
theorem forms_drawText (dtype : DType) (seed : UInt64) (counter : Nat)
    : Forms Operator.mul.strength (drawText dtype seed counter) (drawn dtype seed counter) := by
  have floating : Lexes dtype.cType.toList (CType.floating dtype).words := by
    cases dtype
    all_goals exact lexes_of_unquoted (by decide) rfl
  have drop : Forms Operator.tightest (String.ofList (dropText dtype)) (.number (dropText dtype)) := by
    cases dtype
    all_goals exact forms_number (lexes_of_unquoted (by decide) rfl)
  have scale
      : Forms Operator.tightest (String.ofList (scaleText dtype)) (.number (scaleText dtype)) := by
    cases dtype
    all_goals exact forms_number (lexes_of_unquoted (by decide) rfl)
  have word := (forms_called seed counter).weaken Operator.shiftRight.strength_lt.le
  have shift : " >> ".toList = ' ' :: (Operator.shiftRight.chars ++ [' ']) := by rfl
  have shifted := Forms.binary .shiftRight shift word (drop.weaken (by decide))
  have converted := (shifted.parentheses.cast floating).weaken Operator.mul.strength_lt.le
  have times : " * ".toList = ' ' :: (Operator.mul.chars ++ [' ']) := by rfl
  have whole := Forms.binary .mul times converted scale
  have text
      : drawText dtype seed counter
        = "(" ++ dtype.cType ++ ")"
          ++ ("("
            ++ ("kiln_splitmix64(" ++ seed.toNat.repr ++ "ULL, (unsigned long long)"
              ++ counterName counter ++ ")" ++ " >> " ++ String.ofList (dropText dtype))
            ++ ")")
          ++ " * " ++ String.ofList (scaleText dtype) := by
    simp only [String.append_assoc]
    cases dtype with
    | float32 =>
        have opening : "(float)(" = "(" ++ ("float" ++ (")" ++ "(")) := by rfl
        have closing : " >> 40) * 0x1.0p-24f"
            = " >> " ++ ("40" ++ (")" ++ (" * " ++ "0x1.0p-24f"))) := by rfl
        rw [drawText, opening, closing]
        simp only [String.append_assoc]
        rfl
    | float64 =>
        have opening : "(double)(" = "(" ++ ("double" ++ (")" ++ "(")) := by rfl
        have closing : " >> 11) * 0x1.0p-53" = " >> " ++ ("11" ++ (")" ++ (" * " ++ "0x1.0p-53"))) := by
          rfl
        rw [drawText, opening, closing]
        simp only [String.append_assoc]
        rfl
  rw [text]
  exact whole

/-- A draw is read as a product of the shifted word and the scale. -/
theorem read_drawText (dtype : DType) (seed : UInt64) (counter : Nat)
    : Expression.read (drawText dtype seed counter).toList = some (drawn dtype seed counter) :=
  (forms_drawText dtype seed counter).read_eq

-----------------------------------------------------------------------------------------
-- The value
-----------------------------------------------------------------------------------------

section Value

variable (dtype : DType) (seed index : UInt64) (counter : Nat)

/-- The call of the generator gives the word of the stream. -/
theorem evaluate_called
    : (called seed counter).evaluate (generator.environment (counting counter index.toInt64))
      = some (.unsigned (Random.word seed index)) := by
  have counted
      : counting counter index.toInt64 (counterName counter).toList
        = some (.signed index.toInt64) :=
    if_pos rfl
  have arguments
      : (Arguments.cons (.number (Nat.toDigits 10 seed.toNat ++ ['U', 'L', 'L']))
          (.cons (.cast .unsigned (.named (counterName counter).toList)) .none)).evaluate
          (generator.environment (counting counter index.toInt64))
        = some [.unsigned seed, .unsigned index] := by
    simp only [Arguments.evaluate, Expression.evaluate, readConstant_unsigned,
      Definition.environment, counted]
    rfl
  rw [called, Expression.evaluate, arguments]
  exact call_generator seed index

/-- The word is shifted down to the bits that a draw keeps. -/
theorem evaluate_shifted
    : (Expression.binary .shiftRight (called seed counter) (.number (dropText dtype))).evaluate
        (generator.environment (counting counter index.toInt64))
      = some (.unsigned (Random.word seed index >>> .ofNat (64 - dtype.format.precision))) := by
  rw [Expression.evaluate, evaluate_called, Expression.evaluate]
  cases dtype with
  | float32 =>
      have constant : readConstant (dropText .float32) = some (.signed 40) := by rfl
      rw [constant]
      rfl
  | float64 =>
      have constant : readConstant (dropText .float64) = some (.signed 11) := by rfl
      rw [constant]
      rfl

/-- The kept bits become a number of the element type. -/
theorem evaluate_converted
    : (Expression.cast (.floating dtype)
        (.binary .shiftRight (called seed counter) (.number (dropText dtype)))).evaluate
        (generator.environment (counting counter index.toInt64))
      = some (.floating dtype (Random.conversion dtype seed index)) := by
  rw [Expression.evaluate, evaluate_shifted, Random.conversion, ← Random.toNat_shiftRight_word]
  rfl

/-- A draw is scaled with one over the number of draws. -/
theorem evaluate_scale (environment : Environment)
    : (Expression.number (scaleText dtype)).evaluate environment
      = some (.floating dtype (Random.scale dtype)) := by
  have read
      : Numeral.read (scaleText dtype)
        = ⟨16, 16, 1, some 1, some (-dtype.format.precision), dtype.mathSuffix.toList⟩ := by
    cases dtype
    all_goals rfl
  have value : (Numeral.read (scaleText dtype)).value = 1 / 2 ^ dtype.format.precision := by
    rw [read]
    simp [Numeral.value, Numeral.scale]
  have constant
      : readConstant (scaleText dtype)
        = some (.floating dtype (1 / 2 ^ dtype.format.precision)) := by
    rw [← value]
    cases dtype
    all_goals rfl
  rw [Expression.evaluate, constant, Random.scale_eq]
  rfl

/-- A draw in a kernel evaluates to the draw of the host. -/
theorem evaluate_drawn
    : (drawn dtype seed counter).evaluate (generator.environment (counting counter index.toInt64))
      = some (.floating dtype (Random.uniform dtype seed index).toNat) := by
  have finite {bits : Nat} (below : bits < dtype.format.infinity)
      : dtype.format.unsigned bits < dtype.format.infinity := by
    rwa [dtype.format.unsigned_of_lt (below.trans dtype.format.infinity_lt)]
  have converted
      : dtype.format.unsigned (Random.conversion dtype seed index) < dtype.format.infinity :=
    finite (Random.round_kept (Random.kept_lt dtype seed index)).1
  have scaled : dtype.format.unsigned (Random.scale dtype) < dtype.format.infinity := by
    rw [Random.scale_eq]
    exact finite (Random.round_inverse dtype).1
  rw [drawn, Expression.evaluate, evaluate_converted, evaluate_scale,
    (Random.unrounded_uniform dtype seed index).product]
  exact if_pos ⟨rfl, converted, scaled⟩

end Value

-----------------------------------------------------------------------------------------
-- Random kernels
-----------------------------------------------------------------------------------------

/-- The statement of the loop of a random kernel. -/
theorem lines_draw (dtype : DType) (seed : UInt64) (count : Nat)
    : (fillFlat count (.draw seed 0)).lines dtype
      = [Writer.indent 1 ++ Writer.loopHead 0 count,
          "    out[ridx0] = " ++ drawText dtype seed 0 ++ ";", Writer.indent 1 ++ "\x7d"] := by
  have target : Writer.indent 2 ++ (flatAddress.output ++ " = ") = "    out[ridx0] = " := by
    rfl
  have statement
      : Writer.indent 2 ++ (flatAddress.output ++ " = " ++ drawText dtype seed 0 ++ ";")
        = "    out[ridx0] = " ++ drawText dtype seed 0 ++ ";" := by
    rw [← target]
    simp only [String.append_assoc]
  rw [← statement]
  rfl

/-- A task that fills an array with draws. -/
def drawing (target : Buffer) (operands : List Source) (seed : UInt64) : Task :=
  ⟨⟨.fill .random, operands, some (.seed seed)⟩, target, []⟩

/-- The kernel of a random fill defines the generator and then writes a draw at each counter. -/
theorem render_drawing (target : Buffer) (operands : List Source) (seed : UInt64)
    : ∃ unit head tail,
        (drawing target operands seed).render = .ok unit
        ∧ unit.source
          = "\n".intercalate
              (["#include <math.h>", ""] ++ generatorText ++ head
                ++ ("    out[ridx0] = " ++ drawText target.dtype seed 0 ++ ";") :: tail) := by
  refine ⟨_,
    ["", signature (drawing target operands seed).kernelName target.dtype 0,
      Writer.indent 1 ++ Writer.loopHead 0 target.layout.physicalSize],
    [Writer.indent 1 ++ "\x7d", "\x7d", ""], rfl, ?_⟩
  have lines := lines_draw target.dtype seed target.layout.physicalSize
  have whole
      : preamble (.fill .random)
          ++ signature (drawing target operands seed).kernelName target.dtype 0
            :: (fillFlat target.layout.physicalSize (.draw seed 0)).lines target.dtype
          ++ ["\x7d", ""]
        = ["#include <math.h>", ""] ++ generatorText
          ++ ["", signature (drawing target operands seed).kernelName target.dtype 0,
            Writer.indent 1 ++ Writer.loopHead 0 target.layout.physicalSize]
          ++ ["    out[ridx0] = " ++ drawText target.dtype seed 0 ++ ";",
            Writer.indent 1 ++ "\x7d", "\x7d", ""] := by
    rw [lines]
    rfl
  rw [← whole]
  rfl

end LazyTensor.Kernel

namespace LazyTensor.Random

open Code Float.Format

/-- Draws are exact, and kernels draw the same. A draw is the leading bits of the word over a power
of two; no step of it rounds; it is at least zero and below one; and the narrow draw is the wide one
cut to fewer places. In the kernel of a random fill the expression that is written at a counter,
read with the generator that the kernel defines, has the value of the draw at that counter.
-/
theorem uniform_exact (seed index : UInt64)
    : let draw (dtype : DType) := dtype.format.number (uniform dtype seed index).toNat
      draw .float64 = ((word seed index).toNat / 2 ^ 11 : ℕ) / 2 ^ 53
      ∧ draw .float32 = ((word seed index).toNat / 2 ^ 40 : ℕ) / 2 ^ 24
      ∧ (∀ dtype, Unrounded dtype seed index ∧ 0 ≤ draw dtype ∧ draw dtype < 1)
      ∧ draw .float32 = ⌊draw .float64 * 2 ^ 24⌋ / 2 ^ 24
      ∧ ∃ generator,
          Definition.read ("\n".intercalate Kernel.generatorText).toList = some generator
          ∧ ∀ target operands, ∃ unit head text tail,
              (Kernel.drawing target operands seed).render = .ok unit
              ∧ unit.source
                = "\n".intercalate
                    (["#include <math.h>", ""] ++ Kernel.generatorText ++ head
                      ++ ("    out[ridx0] = " ++ text ++ ";") :: tail)
              ∧ evaluate (generator.environment (Kernel.counting 0 index.toInt64)) text
                = some (.floating target.dtype (uniform target.dtype seed index).toNat) := by
  refine ⟨number_uniform .float64 seed index, number_uniform .float32 seed index,
    fun dtype => ⟨unrounded_uniform dtype seed index, uniform_mem dtype seed index⟩,
    uniform_truncated seed index, Kernel.generator, Kernel.read_generator,
    fun target operands => ?_⟩
  obtain ⟨unit, head, tail, rendered, source⟩ := Kernel.render_drawing target operands seed
  refine ⟨unit, head, _, tail, rendered, source, ?_⟩
  rw [evaluate, Kernel.read_drawText]
  exact Kernel.evaluate_drawn target.dtype seed index 0

end LazyTensor.Random
