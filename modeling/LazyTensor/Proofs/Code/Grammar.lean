import LazyTensor.Proofs.Code.Expressions

/-! The grammar of C expressions. It says which lexical elements are an expression and how strongly
the operators bind that stand outside of its parentheses. A reader gets through the elements of an
expression and finds just this expression in them, whatever follows, unless a call, an element or a
stronger operator goes on behind.
-/

namespace LazyTensor.Code

-----------------------------------------------------------------------------------------
-- The grammar
-----------------------------------------------------------------------------------------

/-- Parentheses around some elements are no cast, since they are not those of a type. -/
def Uncast (list : List Lexeme) : Prop :=
  ∀ rest behind type, readType? (list ++ rest) ≠ some (type, mark ')' :: behind)

/-- Elements are an expression whose operators bind at least as strongly as some strength. -/
inductive Spelled : Nat → List Lexeme → Expression → Prop where
  | number (chars : List Char) : Spelled Operator.tightest [⟨.number, chars⟩] (.number chars)
  | quoted (chars : List Char) : Spelled Operator.tightest [⟨.quoted, chars⟩] (.quoted chars)
  | named (name : List Char) : Spelled Operator.tightest [⟨.name, name⟩] (.named name)
  | element {list : List Lexeme} {index : Expression} (name : List Char)
      (spelled : Spelled 0 list index)
      : Spelled Operator.tightest (⟨.name, name⟩ :: mark '[' :: (list ++ [mark ']']))
          (.element name index)
  | call (name : List Char)
      : Spelled Operator.tightest [⟨.name, name⟩, mark '(', mark ')'] (.call name .none)
  | callOne {list : List Lexeme} {argument : Expression} (name : List Char)
      (spelled : Spelled 0 list argument)
      : Spelled Operator.tightest (⟨.name, name⟩ :: mark '(' :: (list ++ [mark ')']))
          (.call name (.cons argument .none))
  | callTwo {list more : List Lexeme} {first second : Expression} (name : List Char)
      (spelled : Spelled 0 list first) (others : Spelled 0 more second)
      : Spelled Operator.tightest
          (⟨.name, name⟩ :: mark '(' :: (list ++ mark ',' :: (more ++ [mark ')'])))
          (.call name (.cons first (.cons second .none)))
  | negate {list : List Lexeme} {operand : Expression}
      (spelled : Spelled Operator.tightest list operand)
      : Spelled Operator.tightest (mark '-' :: list) (.negate operand)
  | cast {list : List Lexeme} {operand : Expression} (type : CType)
      (spelled : Spelled Operator.tightest list operand)
      : Spelled Operator.tightest (mark '(' :: (type.words ++ mark ')' :: list))
          (.cast type operand)
  | parentheses {list : List Lexeme} {inner : Expression} (uncast : Uncast list)
      (spelled : Spelled 0 list inner)
      : Spelled Operator.tightest (mark '(' :: (list ++ [mark ')'])) inner
  | binary {list more : List Lexeme} {left right : Expression} (op : Operator)
      (spelled : Spelled op.strength list left) (others : Spelled (op.strength + 1) more right)
      : Spelled op.strength (list ++ ⟨.mark, op.chars⟩ :: more) (.binary op left right)
  | weaken {level stronger : Nat} {list : List Lexeme} {expression : Expression}
      (weaker : level ≤ stronger) (spelled : Spelled stronger list expression)
      : Spelled level list expression

variable {level : Nat} {list rest : List Lexeme} {expression : Expression}

theorem Operator.strength_lt (op : Operator) : op.strength < Operator.tightest := by
  cases op <;> decide

theorem Operator.strength_pos (op : Operator) : 0 < op.strength := by
  cases op <;> decide

theorem Operator.ofMark?_chars (op : Operator) : ofMark? op.chars = some op := by
  cases op <;> rfl

/-- An expression starts with an element that closes nothing. -/
theorem Spelled.exists_cons (spelled : Spelled level list expression)
    : ∃ first others, list = first :: others ∧ first ≠ mark ')' := by
  induction spelled with
  | number | quoted | named | element | call | callOne | callTwo =>
      exact ⟨_, _, rfl, fun same => by cases congrArg Lexeme.kind same⟩
  | negate | cast | parentheses => exact ⟨_, _, rfl, by decide⟩
  | binary op left right ihLeft ihRight =>
      obtain ⟨first, others, rfl, opens⟩ := ihLeft
      exact ⟨first, _, rfl, opens⟩
  | weaken weaker spelled ih => exact ih

-----------------------------------------------------------------------------------------
-- Ends
-----------------------------------------------------------------------------------------

/-- What follows makes no call and no element of the name in front of it. -/
def Unopened (rest : List Lexeme) : Prop :=
  rest.head? ≠ some (mark '(') ∧ rest.head? ≠ some (mark '[')

/-- What follows does not go on with an expression: no operator is stronger than some strength. -/
structure Ends (level : Nat) (rest : List Lexeme) : Prop where
  unopened : Unopened rest
  weak
    : ∀ chars ∈ rest.head?.map Lexeme.chars, ∀ op ∈ Operator.ofMark? chars, op.strength ≤ level

/-- An expression ends in front of operators that bind too weakly, of which all are that do not bind
at all.
-/
theorem Ends.readOperators_eq (ends : Ends level rest) {least : Nat} (strong : level < max least 1)
    (fuel : Nat) (expression : Expression)
    : readOperators (fuel + 1) least expression rest = some (expression, rest) := by
  rcases rest with _ | ⟨⟨kind, chars⟩, rest⟩
  · rfl
  · cases kind with
    | mark =>
        rw [readOperators]
        split
        · next op known =>
            have weak := ends.weak chars rfl op known
            have some := op.strength_pos
            rw [if_neg (by omega)]
        · rfl
    | blank | name | number | quoted => rfl

/-- A mark that is no operator ends every expression. -/
theorem ends_mark {chars : List Char} (other : Operator.ofMark? chars = none)
    (closed : chars ≠ ['('] ∧ chars ≠ ['[']) (level : Nat) (rest : List Lexeme)
    : Ends level (⟨.mark, chars⟩ :: rest) where
  unopened := by simpa [Unopened, mark] using closed
  weak := by
    rintro chars ⟨⟩ op known
    exact absurd (other.symm.trans known) (by simp)

theorem ends_nil (level : Nat) : Ends level [] := by
  constructor <;> simp [Unopened]

/-- In front of an operator an expression ends that binds as strongly. -/
theorem ends_operator (op : Operator) (rest : List Lexeme)
    : Ends op.strength (⟨.mark, op.chars⟩ :: rest) where
  unopened := by cases op <;> simp [Unopened, mark, Operator.chars]
  weak := by
    rintro chars ⟨⟩ other known
    obtain rfl := Option.some.inj (op.ofMark?_chars.symm.trans known)
    exact Nat.le_refl _

theorem Ends.mono (ends : Ends level rest) {stronger : Nat} (weaker : level ≤ stronger)
    : Ends stronger rest :=
  ⟨ends.unopened, fun chars head op known => (ends.weak chars head op known).trans weaker⟩

-----------------------------------------------------------------------------------------
-- Reading
-----------------------------------------------------------------------------------------

/-- A reader gets through elements as one operand. -/
def ReadsOperand (list : List Lexeme) (expression : Expression) : Prop :=
  ∀ fuel ≥ 4 * list.length, ∀ rest,
    Unopened rest → readOperand fuel (list ++ rest) = some (expression, rest)

/-- A reader gets through elements and goes on with the operators behind them, with no less fuel than
what the elements leave.
-/
def ReadsExpression (level : Nat) (list : List Lexeme) (expression : Expression) : Prop :=
  ∀ least ≤ level, ∀ fuel > 4 * list.length, ∀ rest,
    Ends level rest →
      ∃ left,
        fuel ≤ left + 4 * list.length
        ∧ readExpression fuel least (list ++ rest) = readOperators left least expression rest

/-- What is read as an operand is an expression without operators. -/
theorem ReadsOperand.readsExpression (reads : ReadsOperand list expression) (some : list ≠ [])
    (level : Nat)
    : ReadsExpression level list expression := by
  intro least _ fuel enough rest ends
  have long := List.length_pos_iff.mpr some
  obtain ⟨fuel, rfl⟩ := Nat.exists_eq_add_of_lt enough
  refine ⟨4 * list.length + fuel, by omega, ?_⟩
  change (readOperand (4 * list.length + fuel) (list ++ rest)).bind _ = _
  rw [reads _ (by omega) rest ends.unopened]
  rfl

/-- An expression is read up to what ends it. -/
theorem ReadsExpression.read_eq (reads : ReadsExpression level list expression)
    {least outer fuel : Nat} (within : least ≤ level) (enough : 4 * list.length < fuel)
    (ends : Ends outer rest) (weaker : outer ≤ level) (strong : outer < max least 1)
    : readExpression fuel least (list ++ rest) = some (expression, rest) := by
  obtain ⟨left, more, read⟩ := reads least within fuel enough rest (ends.mono weaker)
  obtain ⟨left, rfl⟩ := Nat.exists_eq_add_of_lt (show 0 < left by omega)
  rw [read, ends.readOperators_eq strong]

/-- What stands between brackets is read up to the closing one. -/
theorem ReadsExpression.read_mark (reads : ReadsExpression 0 list expression) {chars : List Char}
    (other : Operator.ofMark? chars = none) (closed : chars ≠ ['('] ∧ chars ≠ ['[']) {fuel : Nat}
    (enough : 4 * list.length < fuel) (rest : List Lexeme)
    : readExpression fuel 0 (list ++ ⟨.mark, chars⟩ :: rest)
      = some (expression, ⟨.mark, chars⟩ :: rest) :=
  reads.read_eq (Nat.le_refl 0) enough (ends_mark other closed 0 rest) (Nat.le_refl 0) Nat.one_pos

theorem readsOperand_element (name : List Char) (reads : ReadsExpression 0 list expression)
    : ReadsOperand (⟨.name, name⟩ :: mark '[' :: (list ++ [mark ']'])) (.element name expression) := by
  intro fuel enough rest _
  simp only [List.length_cons, List.length_append, List.length_nil] at enough
  obtain ⟨fuel, rfl⟩ := Nat.exists_eq_add_of_le' (show 1 ≤ fuel by omega)
  have inner : readExpression fuel 0 (list ++ mark ']' :: rest) = some (expression, mark ']' :: rest) :=
    reads.read_mark rfl (by decide) (by omega) rest
  rw [List.cons_append, List.cons_append, List.append_assoc]
  change (readExpression fuel 0 (list ++ mark ']' :: rest)).bind _ = _
  rw [inner]
  simp [List.isPrefixOf?]

/-- The reading of a call with arguments is that of the arguments. -/
theorem readOperand_call (name : List Char) {first : Lexeme} (opens : first ≠ mark ')')
    (others : List Lexeme) (fuel : Nat)
    : readOperand (fuel + 1) (⟨.name, name⟩ :: mark '(' :: first :: others)
      = (readArguments fuel (first :: others)).bind fun (arguments, rest) =>
          some (.call name arguments, rest) := by
  rw [mark, readOperand]
  · rfl
  · rintro rest ⟨⟩
    exact opens rfl

/-- One argument is read up to the closing parenthesis. -/
theorem readArguments_last (reads : ReadsExpression 0 list expression) {fuel : Nat}
    (enough : 4 * list.length + 1 < fuel) (rest : List Lexeme)
    : readArguments fuel (list ++ mark ')' :: rest) = some (.cons expression .none, rest) := by
  obtain ⟨fuel, rfl⟩ := Nat.exists_eq_add_of_le' (show 1 ≤ fuel by omega)
  have inner : readExpression fuel 0 (list ++ mark ')' :: rest) = _ :=
    reads.read_mark rfl (by decide) (by omega) rest
  exact congrArg (Option.bind · _) inner

theorem readsOperand_callOne (name : List Char) (spelled : Spelled level list expression)
    (reads : ReadsExpression 0 list expression)
    : ReadsOperand (⟨.name, name⟩ :: mark '(' :: (list ++ [mark ')']))
        (.call name (.cons expression .none)) := by
  intro fuel enough rest _
  simp only [List.length_cons, List.length_append, List.length_nil] at enough
  obtain ⟨fuel, rfl⟩ := Nat.exists_eq_add_of_le' (show 1 ≤ fuel by omega)
  have inner : readArguments fuel (list ++ mark ')' :: rest) = _ :=
    readArguments_last reads (by omega) rest
  obtain ⟨first, others, rfl, opens⟩ := spelled.exists_cons
  rw [List.cons_append, List.cons_append, List.append_assoc, List.cons_append,
    readOperand_call name opens, ← List.cons_append]
  exact congrArg (Option.bind · _) inner

theorem readsOperand_callTwo (name : List Char) (spelled : Spelled level list expression)
    (reads : ReadsExpression 0 list expression) {more : List Lexeme} {second : Expression}
    (readsMore : ReadsExpression 0 more second)
    : ReadsOperand (⟨.name, name⟩ :: mark '(' :: (list ++ mark ',' :: (more ++ [mark ')'])))
        (.call name (.cons expression (.cons second .none))) := by
  intro fuel enough rest _
  simp only [List.length_cons, List.length_append, List.length_nil] at enough
  obtain ⟨fuel, rfl⟩ := Nat.exists_eq_add_of_le' (show 2 ≤ fuel by omega)
  have left : readExpression fuel 0 (list ++ mark ',' :: (more ++ mark ')' :: rest)) = _ :=
    reads.read_mark rfl (by decide) (by omega) _
  have right : readArguments fuel (more ++ mark ')' :: rest) = _ :=
    readArguments_last readsMore (by omega) rest
  have inner
      : readArguments (fuel + 1) (list ++ mark ',' :: (more ++ mark ')' :: rest))
        = some (.cons expression (.cons second .none), rest) := by
    refine (congrArg (Option.bind · _) left).trans ?_
    exact congrArg (Option.bind · _) right
  obtain ⟨first, others, rfl, opens⟩ := spelled.exists_cons
  rw [List.cons_append, List.cons_append, List.append_assoc, List.cons_append, List.cons_append,
    List.append_assoc, readOperand_call name opens, ← List.cons_append]
  exact congrArg (Option.bind · _) inner

theorem readsOperand_negate (reads : ReadsOperand list expression)
    : ReadsOperand (mark '-' :: list) (.negate expression) := by
  intro fuel enough rest unopened
  rw [List.length_cons] at enough
  obtain ⟨fuel, rfl⟩ := Nat.exists_eq_add_of_le' (show 1 ≤ fuel by omega)
  exact congrArg (Option.bind · _) (reads fuel (by omega) rest unopened)

theorem readsOperand_cast (type : CType) (reads : ReadsOperand list expression)
    : ReadsOperand (mark '(' :: (type.words ++ mark ')' :: list)) (.cast type expression) := by
  intro fuel enough rest unopened
  simp only [List.length_cons, List.length_append] at enough
  obtain ⟨fuel, rfl⟩ := Nat.exists_eq_add_of_le' (show 1 ≤ fuel by omega)
  have inner := congrArg (Option.bind · fun read => some (Expression.cast type read.1, read.2))
    (reads fuel (by omega) rest unopened)
  cases type with
  | unsigned => exact inner
  | floating dtype =>
      cases dtype with
      | float32 => exact inner
      | float64 => exact inner

theorem readsOperand_parentheses (uncast : Uncast list) (reads : ReadsExpression 0 list expression)
    : ReadsOperand (mark '(' :: (list ++ [mark ')'])) expression := by
  intro fuel enough rest _
  simp only [List.length_cons, List.length_append, List.length_nil] at enough
  obtain ⟨fuel, rfl⟩ := Nat.exists_eq_add_of_le' (show 1 ≤ fuel by omega)
  have inner : readExpression fuel 0 (list ++ mark ')' :: rest) = _ :=
    reads.read_mark rfl (by decide) (by omega) rest
  rw [List.cons_append, List.append_assoc, List.cons_append, List.nil_append, mark, readOperand]
  split
  · next type behind read => exact absurd read (uncast _ _ _)
  · rw [inner]
    simp [List.isPrefixOf?, mark]

/-- An operator is read between its operands. -/
theorem readsExpression_binary (op : Operator) (reads : ReadsExpression op.strength list expression)
    {more : List Lexeme} {right : Expression}
    (readsMore : ReadsExpression (op.strength + 1) more right)
    : ReadsExpression op.strength (list ++ ⟨.mark, op.chars⟩ :: more)
        (.binary op expression right) := by
  intro least within fuel enough rest ends
  rw [List.length_append, List.length_cons] at enough ⊢
  rw [List.append_assoc, List.cons_append]
  obtain ⟨left, some, read⟩ := reads least within fuel (by omega) _ (ends_operator op (more ++ rest))
  obtain ⟨left, rfl⟩ := Nat.exists_eq_add_of_le' (show 1 ≤ left by omega)
  have behind : readExpression left (op.strength + 1) (more ++ rest) = _ :=
    readsMore.read_eq (Nat.le_refl _) (by omega) ends (Nat.le_succ _)
      (Nat.lt_of_lt_of_le (Nat.lt_succ_self _) (Nat.le_max_left _ _))
  refine ⟨left, by omega, ?_⟩
  rw [read, readOperators, op.ofMark?_chars]
  dsimp only
  rw [if_pos within, behind]
  rfl

/-- A reader gets through every expression, by induction on how it is spelled. What binds as
strongly as an operand is read as one.
-/
theorem Spelled.reads (spelled : Spelled level list expression)
    : ReadsExpression level list expression
      ∧ (Operator.tightest ≤ level → ReadsOperand list expression) := by
  have operand {list : List Lexeme} {expression : Expression} {level : Nat} (some : list ≠ [])
      (reads : ReadsOperand list expression)
      : ReadsExpression level list expression
        ∧ (Operator.tightest ≤ level → ReadsOperand list expression) :=
    ⟨reads.readsExpression some level, fun _ => reads⟩
  induction spelled with
  | number chars | quoted chars =>
      refine operand (List.cons_ne_nil _ _) fun fuel enough rest _ => ?_
      obtain ⟨fuel, rfl⟩ := Nat.exists_eq_add_of_le' enough
      rfl
  | named name =>
      refine operand (List.cons_ne_nil _ _) fun fuel enough rest unopened => ?_
      obtain ⟨fuel, rfl⟩ := Nat.exists_eq_add_of_le' enough
      rw [List.singleton_append, List.length_singleton, readOperand]
      all_goals
        rintro behind rfl
        simp [Unopened, mark] at unopened
  | element name spelled ih =>
      exact operand (List.cons_ne_nil _ _) (readsOperand_element name ih.1)
  | call name =>
      refine operand (List.cons_ne_nil _ _) fun fuel enough rest _ => ?_
      obtain ⟨fuel, rfl⟩ := Nat.exists_eq_add_of_le' enough
      rfl
  | callOne name spelled ih =>
      exact operand (List.cons_ne_nil _ _) (readsOperand_callOne name spelled ih.1)
  | callTwo name spelled others ih ihOthers =>
      exact operand (List.cons_ne_nil _ _) (readsOperand_callTwo name spelled ih.1 ihOthers.1)
  | negate spelled ih =>
      exact operand (List.cons_ne_nil _ _) (readsOperand_negate (ih.2 (Nat.le_refl _)))
  | cast type spelled ih =>
      exact operand (List.cons_ne_nil _ _) (readsOperand_cast type (ih.2 (Nat.le_refl _)))
  | parentheses uncast spelled ih =>
      exact operand (List.cons_ne_nil _ _) (readsOperand_parentheses uncast ih.1)
  | binary op spelled others ih ihOthers =>
      exact ⟨readsExpression_binary op ih.1 ihOthers.1,
        fun tight => absurd op.strength_lt (Nat.not_lt.mpr tight)⟩
  | weaken weaker spelled ih =>
      refine ⟨fun least within fuel enough rest ends => ?_, fun tight => ih.2 (tight.trans weaker)⟩
      exact ih.1 least (within.trans weaker) fuel enough rest (ends.mono weaker)

/-- An expression is read up to a mark that is no operator. -/
theorem Spelled.read_mark (spelled : Spelled level list expression) {chars : List Char}
    (other : Operator.ofMark? chars = none) (closed : chars ≠ ['('] ∧ chars ≠ ['[']) {fuel : Nat}
    (enough : 4 * list.length < fuel) (rest : List Lexeme)
    : readExpression fuel 0 (list ++ ⟨.mark, chars⟩ :: rest)
      = some (expression, ⟨.mark, chars⟩ :: rest) :=
  (spelled.weaken (Nat.zero_le _)).reads.1.read_mark other closed enough rest

/-- A text with the elements of an expression is read as this expression. -/
theorem Spelled.read_eq (spelled : Spelled level list expression) {chars : List Char}
    (lexed : lexemes chars = list)
    : Expression.read chars = some expression := by
  have read : readExpression (fuelFor list) 0 (list ++ []) = some (expression, []) :=
    spelled.reads.1.read_eq (Nat.zero_le _) (by rw [fuelFor]; omega) (ends_nil 0) (Nat.zero_le _)
      Nat.one_pos
  rw [List.append_nil] at read
  rw [Expression.read, lexed, read]

end LazyTensor.Code
