import LazyTensor.Kernel.Evaluation
import LazyTensor.Proofs.Code.Forms
import LazyTensor.Proofs.Code.Sums
import LazyTensor.Proofs.Kernel.Phrases

/-! Indices as C text. What is printed for an index evaluates to the sum of its coordinates, each
times its stride. Coordinates without a stride are not printed and add nothing, so the text of an
index that does not move is a zero.
-/

namespace LazyTensor

open Code

namespace Spelling

-----------------------------------------------------------------------------------------
-- Variables
-----------------------------------------------------------------------------------------

/-- A text that stands for a coordinate. -/
structure Variable where
  text : String
  coordinate : Coordinate
  unquoted : '\"' ∉ text.toList
  lexed : lexemes text.toList = coordinate.elements

theorem quote_notMem_toDigits (number : Nat) : '\"' ∉ Nat.toDigits 10 number := by
  intro member
  exact absurd (Text.isDigit_toDigits number _ member) (by decide)

namespace Variable

/-- A name as a variable. -/
def named (name : String) (word : IsWord name) (letter : isNumber name = false) : Variable where
  text := name
  coordinate := .named name
  unquoted := quote_notMem word.all
  lexed := (lexes_name word letter).lexemes_eq

/-- The characters of a name that is moved. -/
theorem toList_moved (name : String) (offset : Nat)
    : ("(" ++ name ++ " + " ++ offset.repr ++ ")").toList
      = '(' :: ((name.toList ++ ' ' :: '+' :: ' ' :: Nat.toDigits 10 offset) ++ [')']) := by
  simp

/-- A name that is moved, as a variable. -/
def moved (name : String) (word : IsWord name) (letter : isNumber name = false) (offset : Nat)
    : Variable where
  text := "(" ++ name ++ " + " ++ offset.repr ++ ")"
  coordinate := .moved name offset
  unquoted := by
    have own := quote_notMem word.all
    have number := quote_notMem_toDigits offset
    rw [toList_moved]
    simp [own, number]
  lexed := by
    have opens : '(' ∈ separators := by decide
    have closes : ')' ∈ separators := by decide
    have inner := (lexes_name word letter).infixed .add (lexes_toDigits offset)
    rw [toList_moved]
    exact ((inner.append closes lexes_nil).behind opens).lexemes_eq

theorem lexes (printed : Variable) : Lexes printed.text.toList printed.coordinate.elements :=
  lexes_of_unquoted printed.unquoted printed.lexed

end Variable

-----------------------------------------------------------------------------------------
-- Products
-----------------------------------------------------------------------------------------

/-- A variable with its stride as it is printed. -/
def part (term : Variable × Nat) : String :=
  if term.2 = 1 then term.1.text else term.1.text ++ " * " ++ term.2.repr

/-- A variable with its stride as a product. -/
def product (term : Variable × Nat) : Product := ⟨term.1.coordinate, term.2⟩

/-- What is printed for a variable with its stride has the elements of a product. -/
theorem lexes_part (term : Variable × Nat) : Lexes (part term).toList (product term).elements := by
  rw [part, Product.elements]
  change Lexes _ (if term.2 = 1 then _ else _)
  split
  · exact term.1.lexes
  · rw [String.toList_append, String.toList_append, Nat.toList_repr, List.append_assoc]
    exact term.1.lexes.infixed .mul (lexes_toDigits term.2)

/-- What is printed for a sum has the elements of a sum of products, by induction on the terms. -/
theorem lexes_parts (first : Variable × Nat) (others : List (Variable × Nat))
    : Lexes (" + ".intercalate ((first :: others).map part)).toList
        ((product first).elements ++ addedElements (others.map product)) := by
  induction others generalizing first with
  | nil => simpa [addedElements] using lexes_part first
  | cons next others ih =>
      rw [List.map_cons, List.map_cons, String.intercalate_cons_cons]
      have both := (lexes_part first).infixed .add (ih next)
      rw [List.map_cons] at both
      simpa [addedElements, Operator.chars] using both

/-- A sum is printed for the terms with a stride. -/
theorem index_eq (terms : List (Variable × Nat))
    : index (terms.map fun term => (term.1.text, term.2))
      = if (terms.filter (·.2 != 0)).isEmpty then "0"
        else " + ".intercalate ((terms.filter (·.2 != 0)).map part) := by
  rw [index, List.filter_map, List.map_map]
  change (if (List.map part _).isEmpty then _ else " + ".intercalate (List.map part _)) = _
  rw [List.isEmpty_map]
  rfl

/-- Terms without a stride add nothing to a sum, by induction on the terms. -/
theorem sum_filter (values : String → ℤ) (terms : List (Variable × Nat))
    : ((terms.filter (·.2 != 0)).map fun term => (product term).value values).sum
      = (terms.map fun term => term.1.coordinate.value values * (term.2 : ℤ)).sum := by
  induction terms with
  | nil => rfl
  | cons term others ih =>
      rw [List.map_cons, List.sum_cons, ← ih]
      by_cases still : term.2 = 0
      · rw [List.filter_cons_of_neg (by simp [still]), still, Nat.cast_zero, mul_zero, zero_add]
      · rw [List.filter_cons_of_pos (by simp [still]), List.map_cons, List.sum_cons]
        rfl

/-- What is printed for variables with strides evaluates to the sum of their products. -/
theorem integer?_index (values : String → ℤ) (terms : List (Variable × Nat))
    : integer? values (index (terms.map fun term => (term.1.text, term.2)))
      = some (terms.map fun term => term.1.coordinate.value values * (term.2 : ℤ)).sum := by
  rw [index_eq, ← sum_filter]
  cases terms.filter (·.2 != 0) with
  | nil => rfl
  | cons first others =>
      have sum := integer?_sum (lexes_parts first others).lexemes_eq values
      rw [← List.map_cons, List.map_map] at sum
      exact sum

end Spelling

-----------------------------------------------------------------------------------------
-- Addresses
-----------------------------------------------------------------------------------------

namespace Kernel

theorem isNumber_counterName (counter : Nat) : isNumber (counterName counter) = false :=
  eq_false_of_ne_true fun digit => not_isReserved_counterName counter (Or.inl digit)

theorem isName_counterName (counter : Nat) : IsName (counterName counter) :=
  .of_free (isWord_counterName counter) (not_isReserved_counterName counter)

/-- A term's coordinate as a variable. -/
def Term.printed (term : Term) : Spelling.Variable :=
  if term.offset = 0 then .named _ (isWord_counterName term.counter) (isNumber_counterName _)
  else .moved _ (isWord_counterName term.counter) (isNumber_counterName _) term.offset

theorem Term.text_printed (term : Term) : term.printed.text = term.coordinate := by
  rw [printed, coordinate]
  split
  · rfl
  · rfl

/-- A coordinate is as far as its counter with the offset. -/
theorem Term.value_printed {values : String → ℤ} {env : Counters}
    (counted : ∀ counter, values (counterName counter) = env counter) (term : Term)
    : term.printed.coordinate.value values = env term.counter + term.offset := by
  rw [printed]
  split
  · next unmoved => rw [unmoved, Nat.cast_zero, add_zero, ← counted]; rfl
  · rw [← counted]
    rfl

/-- An address is the sum that its terms make over the integers, by induction on the terms. -/
theorem Address.sum_printed {values : String → ℤ} {env : Counters}
    (counted : ∀ counter, values (counterName counter) = env counter) (address : Address)
    : (address.map fun term => term.printed.coordinate.value values * (term.stride : ℤ)).sum
      = address.eval env := by
  induction address with
  | nil => rfl
  | cons term rest ih =>
      rw [List.map_cons, List.sum_cons, ih, Term.value_printed counted, eval]
      push_cast
      rfl

end Kernel

-----------------------------------------------------------------------------------------
-- Sums
-----------------------------------------------------------------------------------------

/-- The text of an index, read with products before sums, evaluates to the sum of its variables
times their strides, for all integers that the names can stand for. So what is printed for an
address of a kernel evaluates to the place that the address names.
-/
theorem Spelling.index_sums (values : String → ℤ)
    : (∀ terms : List (Variable × Nat),
        integer? values (index (terms.map fun term => (term.1.text, term.2)))
        = some (terms.map fun term => term.1.coordinate.value values * (term.2 : ℤ)).sum)
      ∧ ∀ (address : Kernel.Address) (env : Kernel.Counters),
          (∀ counter, values (Kernel.counterName counter) = env counter)
          → integer? values address.text = some (address.eval env : ℤ) := by
  refine ⟨integer?_index values, ?_⟩
  intro address env counted
  have sum := integer?_index values (address.map fun term => (term.printed, term.stride))
  rw [List.map_map, List.map_map] at sum
  have text
      : address.text
        = index (address.map fun term => (term.printed.text, term.stride)) := by
    simp only [Kernel.Address.text, Kernel.Term.text_printed]
  rw [text, ← Kernel.Address.sum_printed counted]
  exact sum

/-- Three variables, the last of them in a dimension that does not move. -/
def Spelling.sampleTerms : List (Variable × Nat) :=
  [(.moved "ridx0" ⟨by decide, by decide⟩ (by decide) 2, 12),
    (.named "ridx1" ⟨by decide, by decide⟩ (by decide), 1),
    (.named "ridx2" ⟨by decide, by decide⟩ (by decide), 0)]

theorem Spelling.index_sums_sample
    : integer? (fun name => if name = "ridx0" then -5 else 7) "(ridx0 + 2) * 12 + ridx1"
      = some (-29) := by
  have sum := (index_sums fun name => if name = "ridx0" then -5 else 7).1 sampleTerms
  have text
      : index (sampleTerms.map fun term => (term.1.text, term.2))
        = "(ridx0 + 2) * 12 + ridx1" := by
    rfl
  rw [text] at sum
  rw [sum]
  rfl

end LazyTensor
