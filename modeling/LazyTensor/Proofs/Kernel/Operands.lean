import LazyTensor.Proofs.Kernel.Drawing
import LazyTensor.Proofs.Kernel.Printing

/-! Operands of statements read back. The text of an address is read as the terms that move it, and
the text of an expression as the expression, with its addresses and constants as they are printed.
-/

namespace LazyTensor.Kernel

open Code

-----------------------------------------------------------------------------------------
-- Names
-----------------------------------------------------------------------------------------

/-- The number behind the front of a name is read back. -/
theorem numbered?_append (front : String) (number : Nat)
    : numbered? front (front ++ number.repr).toList = some number := by
  have behind :
      front.toList.isPrefixOf? (front ++ number.repr).toList = some (Nat.toDigits 10 number) := by
    rw [List.isPrefixOf?_eq_some_iff_append_eq, String.toList_append, Nat.toList_repr]
  rw [numbered?, behind]
  change (natural? (Nat.toDigits 10 number)).bind _ = _
  rw [natural?_toDigits]
  exact if_pos rfl

theorem numbered?_counterName (counter : Nat)
    : numbered? "ridx" (counterName counter).toList = some counter :=
  numbered?_append "ridx" counter

theorem numbered?_sourceName (source : Nat)
    : numbered? "in" (sourceName source).toList = some source :=
  numbered?_append "in" source

theorem isName_sourceName (source : Nat) : IsName (sourceName source) :=
  .of_free (isWord_sourceName source) (not_isReserved_sourceName source)

-----------------------------------------------------------------------------------------
-- Addresses
-----------------------------------------------------------------------------------------

/-- A term as a product. -/
def Term.product (term : Term) : Product := Spelling.product (term.printed, term.stride)

theorem coordinate?_printed (term : Term)
    : coordinate? term.printed.coordinate.expression = some (term.counter, term.offset) := by
  rw [Term.printed]
  split
  · next unmoved =>
      change (numbered? "ridx" (counterName term.counter).toList).map (·, 0) = _
      rw [numbered?_counterName, unmoved]
      rfl
  · change (numbered? "ridx" (counterName term.counter).toList).bind _ = _
    rw [numbered?_counterName, Option.bind_some, natural?_toDigits]
    rfl

/-- A coordinate is no product. -/
theorem term?_printed (term : Term)
    : term? term.printed.coordinate.expression
      = some ⟨term.counter, term.offset, 1⟩ := by
  have whole
      : term? term.printed.coordinate.expression
        = (coordinate? term.printed.coordinate.expression).map fun moved =>
            ⟨moved.1, moved.2, 1⟩ := by
    rw [Term.printed]
    split
    · rfl
    · rfl
  rw [whole, coordinate?_printed]
  rfl

theorem term?_product (term : Term) : term? term.product.expression = some term := by
  rw [Product.expression]
  split
  · next one =>
      have one : term.stride = 1 := one
      refine (term?_printed term).trans ?_
      rw [← one]
  · change (coordinate? term.printed.coordinate.expression).bind _ = _
    rw [coordinate?_printed, Option.bind_some]
    change (natural? (Nat.toDigits 10 term.stride)).bind _ = _
    rw [natural?_toDigits]
    rfl

/-- A sum with a term at its end is no term: what a counter is moved by is a number. -/
theorem term?_sum (left : Expression) (term : Term)
    : term? (.binary .add left term.product.expression) = none := by
  rw [Product.expression, Term.product, Spelling.product]
  dsimp only
  split
  · rw [Term.printed]
    split
    all_goals cases left <;> rfl
  · cases left <;> rfl

/-- A sum of terms is read as these, by induction from its end. -/
theorem address?_addAll (first : Term) (others : List Term)
    : address? (addAll first.product.expression (others.map Term.product))
      = some (first :: others) := by
  induction others using List.reverseRecOn with
  | nil =>
      have own := term?_product first
      change address? first.product.expression = _
      generalize first.product.expression = expression at own
      unfold address?
      split
      · cases own
      · rw [own]
      · rw [own]
        rfl
  | append_singleton others last ih =>
      have added
          : addAll first.product.expression ((others ++ [last]).map Term.product)
            = .binary .add (addAll first.product.expression (others.map Term.product))
                last.product.expression := by
        simp [addAll]
      rw [added, address?, term?_sum]
      change (address? _).bind _ = _
      rw [ih, Option.bind_some, term?_product]
      rfl

/-- An address as an expression. -/
def Address.expression (address : Address) : Expression :=
  match address.moving with
  | [] => .number ['0']
  | first :: others => addAll first.product.expression (others.map Term.product)

theorem address?_expression (address : Address)
    : address? address.expression = some address.moving := by
  rw [Address.expression]
  cases address.moving with
  | nil => rfl
  | cons first others => exact address?_addAll first others

/-- The text of an address is an expression. -/
theorem forms_address (address : Address)
    : Forms Operator.add.strength address.text address.expression := by
  let printed := address.map fun term => (term.printed, term.stride)
  have text : address.text = Spelling.index (printed.map fun term => (term.1.text, term.2)) := by
    simp only [Address.text, printed, List.map_map, Function.comp_def, Term.text_printed]
  have moving
      : printed.filter (·.2 != 0)
        = address.moving.map fun term => (term.printed, term.stride) := by
    simp only [printed, Address.moving, List.filter_map, Function.comp_def]
  rw [text, Spelling.index_eq, moving, Address.expression]
  cases address.moving with
  | nil => exact (forms_repr 0).weaken (by decide)
  | cons first others =>
      have lexed :=
        Spelling.lexes_parts (first.printed, first.stride)
          (others.map fun term => (term.printed, term.stride))
      rw [List.map_map] at lexed
      refine ⟨_, lexed, spelled_sum first.product (others.map Term.product), ?_⟩
      have name := isName_counterName first.counter
      rw [Product.elements]
      change Untyped ((if first.stride = 1 then first.printed.coordinate.elements else _) ++ _)
      rw [Term.printed]
      split
      all_goals split
      all_goals first | exact name.untyped _ | exact untyped_of_kind (by decide) _

-----------------------------------------------------------------------------------------
-- Expressions
-----------------------------------------------------------------------------------------

/-- Expressions as kernels have them: functions are of elements of sources, and none of them is the
product of matrices.
-/
inductive Expr.Legible : Expr → Prop where
  | constant (bits : UInt64) : Legible (.constant bits)
  | draw (seed : UInt64) (counter : Nat) : Legible (.draw seed counter)
  | read (source : Nat) (address : Address) : Legible (.read source address)
  | unary (op : UnaryMap) (source : Nat) (address : Address)
      : Legible (.unary op (.read source address))
  | binary {op : BinaryMap} (elementwise : op ≠ .matmul) (left right : Nat)
      (leftAddress rightAddress : Address)
      : Legible (.binary op (.read left leftAddress) (.read right rightAddress))

/-- An expression is no name, and no call that takes an element of the output first. Assigned to an
element it is stored there.
-/
def Storable (expression : Expression) : Prop :=
  (∀ name, expression ≠ .named name)
  ∧ ∀ name index operand,
      expression ≠ .call name (.cons (.element "out".toList index) (.cons operand .none))

/-- A text is read as an expression that may be stored. -/
def Reads (dtype : DType) (level : Nat) (text : String) (expr : Expr) : Prop :=
  ∃ expression,
    Forms level text expression ∧ value? dtype expression = some expr ∧ Storable expression

section Expressions

variable (dtype : DType)

/-- A constant is a value, by cases on how it is written. -/
theorem value?_of_pattern?
    : ∀ {expression : Expression} {bits : Nat},
        pattern? dtype expression = some bits
        → value? dtype expression = some (.constant (dtype.toBinary64 bits)) ∧ Storable expression
  | .number chars, bits, read => by
      refine ⟨?_, by simp [Storable]⟩
      rw [value?]
      exact congrArg (Option.map _) read
  | .negate operand, bits, read => ⟨by rw [value?, read], by simp [Storable]⟩
  | .call name .none, bits, read => ⟨by rw [value?, read], by simp [Storable]⟩
  | .call name (.cons (.quoted text) .none), bits, read =>
      ⟨by rw [value?, read], by simp [Storable]⟩

theorem reads_literal (bits : UInt64)
    : Reads dtype Operator.tightest (dtype.literal bits) (.constant (dtype.narrowed bits)) := by
  obtain ⟨expression, forms, read⟩ := dtype.constant_literal bits
  exact ⟨expression, forms, value?_of_pattern? dtype read⟩

/-- A draw is read with its seed and its counter. -/
theorem draw?_drawn (seed : UInt64) (counter : Nat)
    : draw? dtype (drawn dtype seed counter) = some (seed, counter) := by
  have ends : ∀ char ∈ ['U', 'L', 'L'].head?, char.isDigit = false ∧ char ≠ '.' ∧ char ≠ 'x' := by
    rintro char ⟨⟩
    exact ⟨rfl, by decide, by decide⟩
  have back
      : UInt64.ofNat (Numeral.read (Nat.toDigits 10 seed.toNat ++ ['U', 'L', 'L'])).digits
        = seed := by
    rw [Numeral.read_append seed.toNat ends]
    exact UInt64.ofNat_toNat
  rw [drawn, called, draw?]
  change (numbered? "ridx" (counterName counter).toList).bind _ = _
  rw [numbered?_counterName, Option.bind_some, back]
  exact if_pos rfl

theorem reads_draw (seed : UInt64) (counter : Nat)
    : Reads dtype Operator.mul.strength (drawText dtype seed counter) (.draw seed counter) := by
  refine ⟨_, forms_drawText dtype seed counter, ?_, by simp [Storable, drawn]⟩
  have read := draw?_drawn dtype seed counter
  rw [drawn] at read ⊢
  rw [value?, read]

/-- An element of a source as an expression. -/
def element (source : Nat) (address : Address) : Expression :=
  .element (sourceName source).toList address.expression

theorem forms_element (source : Nat) (address : Address)
    : Forms Operator.tightest ("in" ++ source.repr ++ "[" ++ address.text ++ "]")
        (element source address) :=
  (forms_address address).element (isName_sourceName source)

theorem value?_element (source : Nat) (address : Address)
    : value? dtype (element source address) = some (.read source address.moving) := by
  change (numbered? "in" (sourceName source).toList).bind _ = _
  rw [numbered?_sourceName, Option.bind_some]
  change (address? address.expression).bind _ = _
  rw [address?_expression]
  rfl

/-- Elements as arguments are read one by one. -/
theorem values?_element (source : Nat) (address : Address) (others : Arguments)
    : values? dtype (.cons (element source address) others)
      = (values? dtype others).map (.read source address.moving :: ·) := by
  change (value? dtype (element source address)).bind _ = _
  rw [value?_element, Option.bind_some]
  exact Option.map_eq_bind.symm

/-- No source is the output. -/
theorem sourceName_ne_out (source : Nat) : (sourceName source).toList ≠ "out".toList := by
  rw [sourceName, String.toList_append]
  simp

/-- The functions of the library are names in both variants. -/
theorem isName_mathFunction {name : String}
    (known : name ∈ ["sin", "sqrt", "exp2", "log2", "fmax"])
    : IsName (dtype.mathFunction name) := by
  simp only [List.mem_cons, List.not_mem_nil, or_false] at known
  rcases known with rfl | rfl | rfl | rfl | rfl
  all_goals
    cases dtype
    all_goals exact ⟨⟨by decide, by decide⟩, by decide, by decide⟩

/-- A call of a function of one operand is read as this function. -/
theorem reads_unaryCall {op : UnaryMap} {name : String}
    (known : name ∈ ["sin", "sqrt", "exp2", "log2", "fmax"])
    (same : unaryNamed? dtype (dtype.mathFunction name).toList = some op) (source : Nat)
    (address : Address)
    : Reads dtype Operator.tightest
        (dtype.mathFunction name ++ "(" ++ ("in" ++ source.repr ++ "[" ++ address.text ++ "]")
          ++ ")")
        (.unary op (.read source address.moving)) := by
  refine ⟨_, (forms_element source address).callOne (isName_mathFunction dtype known), ?_,
    by simp [Storable]⟩
  change (values? dtype (.cons (element source address) .none)).bind _ = _
  rw [values?_element]
  exact congrArg (Option.map _) same

theorem reads_unary (op : UnaryMap) (source : Nat) (address : Address)
    : Reads dtype Operator.tightest
        (Expr.text dtype (.unary op (.read source address)))
        (.unary op (.read source address.moving)) := by
  cases op with
  | neg =>
      have apart
          : ∀ first ∈ ("in" ++ source.repr ++ "[" ++ address.text ++ "]").toList.head?,
              first ∉ ['-', '=', '>'] := by
        simp
      refine ⟨_, ((forms_element source address).negate apart).parentheses, ?_, by simp [Storable]⟩
      change (value? dtype (element source address)).map (Expr.unary .neg) = _
      rw [value?_element]
      rfl
  | sin => exact reads_unaryCall dtype (by decide) (by cases dtype <;> decide) source address
  | sqrt => exact reads_unaryCall dtype (by decide) (by cases dtype <;> decide) source address
  | exp2 => exact reads_unaryCall dtype (by decide) (by cases dtype <;> decide) source address
  | log2 => exact reads_unaryCall dtype (by decide) (by cases dtype <;> decide) source address

/-- Two elements with an operator between them. -/
theorem forms_elements {op : Operator} {joint : String}
    (between : joint.toList = ' ' :: (op.chars ++ [' '])) (left right : Nat)
    (leftAddress rightAddress : Address)
    : Forms op.strength
        ("in" ++ left.repr ++ "[" ++ leftAddress.text ++ "]" ++ joint
          ++ ("in" ++ right.repr ++ "[" ++ rightAddress.text ++ "]"))
        (.binary op (element left leftAddress) (element right rightAddress)) := by
  have first := (forms_element left leftAddress).weaken op.strength_lt.le
  have second := (forms_element right rightAddress).weaken op.strength_lt
  exact Forms.binary op between first second

/-- An operator between two elements is read as its function. -/
theorem reads_infix {op : BinaryMap} {sign : Operator} {joint : String}
    (between : joint.toList = ' ' :: (sign.chars ++ [' '])) (same : binaryOf? sign = some op)
    (left right : Nat) (leftAddress rightAddress : Address)
    : Reads dtype Operator.tightest
        ("(" ++ ("in" ++ left.repr ++ "[" ++ leftAddress.text ++ "]") ++ joint
          ++ ("in" ++ right.repr ++ "[" ++ rightAddress.text ++ "]") ++ ")")
        (.binary op (.read left leftAddress.moving) (.read right rightAddress.moving)) := by
  have forms := (forms_elements between left right leftAddress rightAddress).parentheses
  simp only [String.append_assoc] at forms ⊢
  refine ⟨_, forms, ?_, by simp [Storable]⟩
  change (binaryOf? sign).bind (fun op => (value? dtype (element left leftAddress)).bind _) = _
  simp only [same, value?_element, Option.bind_eq_bind, Option.bind_some]

theorem reads_binary {op : BinaryMap} (elementwise : op ≠ .matmul) (left right : Nat)
    (leftAddress rightAddress : Address)
    : Reads dtype Operator.tightest
        (Expr.text dtype (.binary op (.read left leftAddress) (.read right rightAddress)))
        (.binary op (.read left leftAddress.moving) (.read right rightAddress.moving)) := by
  have infixed (sign : Operator) {joint : String}
      (between : joint.toList = ' ' :: (sign.chars ++ [' '])) (same : binaryOf? sign = some op) :=
    reads_infix dtype between same left right leftAddress rightAddress
  cases op with
  | add => exact infixed .add rfl rfl
  | sub => exact infixed .sub rfl rfl
  | mul => exact infixed .mul rfl rfl
  | div => exact infixed .div rfl rfl
  | matmul => exact absurd rfl elementwise
  | max =>
      have called :=
        (forms_element left leftAddress).callTwo (forms_element right rightAddress)
          (isName_mathFunction dtype (by decide : "fmax" ∈ _))
      refine ⟨_, called, ?_, by simp, ?_⟩
      · change (values? dtype
          (.cons (element left leftAddress) (.cons (element right rightAddress) .none))).bind _ = _
        rw [values?_element, values?_element]
        exact if_pos rfl
      · rintro name index operand same
        have first := (Expression.call.inj same).2
        simp only [Arguments.cons.injEq, element, Expression.element.injEq] at first
        exact sourceName_ne_out left first.1.1

end Expressions

theorem Reads.weaken {dtype : DType} {level weaker : Nat} {text : String} {expr : Expr}
    (reads : Reads dtype level text expr) (less : weaker ≤ level)
    : Reads dtype weaker text expr := by
  obtain ⟨expression, forms, read, storable⟩ := reads
  exact ⟨expression, forms.weaken less, read, storable⟩

/-- The text of an expression is read as the expression as it is printed. -/
theorem Expr.Legible.reads {expr : Expr} (legible : expr.Legible) (dtype : DType)
    : Reads dtype Operator.mul.strength (expr.text dtype) (expr.printed dtype) := by
  have tight : Operator.mul.strength ≤ Operator.tightest := Operator.mul.strength_lt.le
  cases legible with
  | constant bits => exact (reads_literal dtype bits).weaken tight
  | draw seed counter => exact reads_draw dtype seed counter
  | read source address =>
      exact ⟨_, (forms_element source address).weaken tight, value?_element dtype source address,
        by simp [Storable, element]⟩
  | unary op source address => exact (reads_unary dtype op source address).weaken tight
  | binary elementwise left right leftAddress rightAddress =>
      exact (reads_binary dtype elementwise left right leftAddress rightAddress).weaken tight

end LazyTensor.Kernel
