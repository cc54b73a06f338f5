import LazyTensor.Proofs.Code.Grammar

/-! Sums of products in C text. A coordinate is a name, or the sum of a name and a number within
parentheses, and a product is a coordinate with a number behind it. A sum of products is read with
every product in one piece, since products bind more strongly than sums, and what it evaluates to
over the integers is the sum of the products.
-/

namespace LazyTensor.Code

-----------------------------------------------------------------------------------------
-- Integers
-----------------------------------------------------------------------------------------

/-- The integer that a number without a point, an exponent or a suffix stands for. -/
def integerOf? (chars : List Char) : Option ℤ := (natural? chars).map Nat.cast

/-- The integer of sums and products, where names stand for integers. -/
def Expression.integer? (values : String → ℤ) : Expression → Option ℤ
  | .number chars => integerOf? chars
  | .named name => some (values (String.ofList name))
  | .binary .add left right => do
      let first ← left.integer? values
      let second ← right.integer? values
      some (first + second)
  | .binary .mul left right => do
      let first ← left.integer? values
      let second ← right.integer? values
      some (first * second)
  | _ => none

/-- The integer that a text has as an expression. -/
def integer? (values : String → ℤ) (text : String) : Option ℤ :=
  (Expression.read text.toList).bind (·.integer? values)

/-- Decimal digits stand for their number. -/
theorem integerOf?_toDigits (number : Nat) : integerOf? (Nat.toDigits 10 number) = some number := by
  rw [integerOf?, natural?_toDigits]
  rfl

-----------------------------------------------------------------------------------------
-- Coordinates and products
-----------------------------------------------------------------------------------------

/-- What an index counts along: a name, or a name moved by a number. -/
inductive Coordinate where
  | named (name : String)
  | moved (name : String) (offset : Nat)
deriving DecidableEq, Repr

namespace Coordinate

/-- The elements of a coordinate in a text. -/
def elements : Coordinate → List Lexeme
  | named name => [⟨.name, name.toList⟩]
  | moved name offset =>
      [⟨.mark, ['(']⟩, ⟨.name, name.toList⟩, ⟨.mark, ['+']⟩, ⟨.number, Nat.toDigits 10 offset⟩,
        ⟨.mark, [')']⟩]

/-- A coordinate as an expression. -/
def expression : Coordinate → Expression
  | named name => .named name.toList
  | moved name offset => .binary .add (.named name.toList) (.number (Nat.toDigits 10 offset))

/-- Where a coordinate is when names stand for integers. -/
def value (values : String → ℤ) : Coordinate → ℤ
  | named name => values name
  | moved name offset => values name + offset

theorem integer?_expression (coordinate : Coordinate) (values : String → ℤ)
    : coordinate.expression.integer? values = some (coordinate.value values) := by
  cases coordinate with
  | named name => simp [expression, Expression.integer?, value]
  | moved name offset => simp [expression, Expression.integer?, integerOf?_toDigits, value]

end Coordinate

/-- A coordinate with the number that it is multiplied by. -/
structure Product where
  coordinate : Coordinate
  stride : Nat
deriving DecidableEq, Repr

namespace Product

/-- The elements of a product in a text. A factor of one is left out. -/
def elements (product : Product) : List Lexeme :=
  if product.stride = 1 then product.coordinate.elements
  else
    product.coordinate.elements
      ++ [⟨.mark, ['*']⟩, ⟨.number, Nat.toDigits 10 product.stride⟩]

/-- A product as an expression. -/
def expression (product : Product) : Expression :=
  if product.stride = 1 then product.coordinate.expression
  else .binary .mul product.coordinate.expression (.number (Nat.toDigits 10 product.stride))

/-- The product, when names stand for integers. -/
def value (values : String → ℤ) (product : Product) : ℤ :=
  product.coordinate.value values * product.stride

theorem integer?_expression (product : Product) (values : String → ℤ)
    : product.expression.integer? values = some (product.value values) := by
  have own := product.coordinate.integer?_expression values
  rw [expression, value]
  split
  · next one => rw [own, one, Nat.cast_one, mul_one]
  · simp [Expression.integer?, own, integerOf?_toDigits]

end Product

-----------------------------------------------------------------------------------------
-- Reading
-----------------------------------------------------------------------------------------

/-- A type in front of a sum is one word: the sign is not part of it. -/
theorem readType?_sum {name : List Char} {rest behind : List Lexeme} {type : CType}
    (read : readType? (⟨.name, name⟩ :: ⟨.mark, ['+']⟩ :: rest) = some (type, behind))
    : behind = ⟨.mark, ['+']⟩ :: rest := by
  obtain ⟨known, _, found⟩ := List.exists_of_findSome?_eq_some read
  obtain ⟨after, dropped, same⟩ := Option.map_eq_some_iff.mp found
  obtain ⟨_, rfl⟩ := Prod.mk.inj same
  have whole := List.isPrefixOf?_eq_some_iff_append_eq.mp dropped
  cases known with
  | unsigned => cases (List.cons.inj (List.cons.inj whole).2).1
  | floating dtype => exact (List.cons.inj whole).2

/-- A coordinate is one operand. -/
theorem Coordinate.spelled (coordinate : Coordinate)
    : Spelled Operator.tightest coordinate.elements coordinate.expression := by
  cases coordinate with
  | named name => exact .named _
  | moved name offset =>
      have sum := (Spelled.named name.toList).weaken Operator.add.strength_lt.le
      have inner := sum.binary .add ((Spelled.number (Nat.toDigits 10 offset)).weaken (by decide))
      refine .parentheses ?_ (inner.weaken (Nat.zero_le _))
      -- A name that is a type makes no cast: no parenthesis closes behind it.
      intro rest behind type read
      cases readType?_sum read

theorem Product.spelled (product : Product)
    : Spelled Operator.mul.strength product.elements product.expression := by
  have own := product.coordinate.spelled.weaken Operator.mul.strength_lt.le
  rw [elements, expression]
  split
  · exact own
  · exact own.binary .mul (.number _)

/-- The elements of products behind a first one. -/
def addedElements (products : List Product) : List Lexeme :=
  products.flatMap fun product => ⟨.mark, ['+']⟩ :: product.elements

/-- Products added to an expression, one after the other. -/
def addAll (first : Expression) (products : List Product) : Expression :=
  products.foldl (fun sum product => .binary .add sum product.expression) first

/-- Products are added to what stands in front of them, by induction on the products: each of them
binds more strongly than the sign in front of it.
-/
theorem spelled_addAll {list : List Lexeme} {first : Expression}
    (spelled : Spelled Operator.add.strength list first) (products : List Product)
    : Spelled Operator.add.strength (list ++ addedElements products) (addAll first products) := by
  induction products generalizing list first with
  | nil => simpa [addedElements, addAll] using spelled
  | cons product others ih =>
      simpa [addedElements, addAll, Operator.chars] using ih (spelled.binary .add product.spelled)

/-- The elements of a sum of products are spelled as the sum. -/
theorem spelled_sum (first : Product) (others : List Product)
    : Spelled Operator.add.strength (first.elements ++ addedElements others)
        (addAll first.expression others) :=
  spelled_addAll (first.spelled.weaken (by decide)) others

/-- Products that are added to an integer, by induction on the products. -/
theorem integer?_addAll {values : String → ℤ} {first : Expression} {start : ℤ}
    (known : first.integer? values = some start) (products : List Product)
    : (addAll first products).integer? values
      = some (start + (products.map (·.value values)).sum) := by
  induction products generalizing first start with
  | nil => simpa [addAll] using known
  | cons product others ih =>
      have added
          : (Expression.binary .add first product.expression).integer? values
            = some (start + product.value values) := by
        simp [Expression.integer?, known, product.integer?_expression]
      rw [List.map_cons, List.sum_cons, ← add_assoc]
      exact ih added

/-- A text with the elements of a sum of products has the sum as its integer. -/
theorem integer?_sum {text : String} {first : Product} {others : List Product}
    (lexed : lexemes text.toList = first.elements ++ addedElements others) (values : String → ℤ)
    : integer? values text = some ((first :: others).map (·.value values)).sum := by
  rw [integer?, (spelled_sum first others).read_eq lexed, Option.bind_some,
    integer?_addAll (first.integer?_expression values), List.map_cons, List.sum_cons]

end LazyTensor.Code
