import LazyTensor.Proofs.Code.Grammar
import LazyTensor.Proofs.Kernel.Scopes

/-! Texts that are expressions. A text is put together from pieces with brackets, commas and blanks
between them, and so are its elements, so what the pieces are tells what the whole text is.
-/

namespace LazyTensor.Code

/-- No type starts with the first one of some elements. -/
def Untyped (list : List Lexeme) : Prop :=
  ∀ first ∈ list.head?, ∀ type : CType, first ∉ type.words.head?

/-- Elements that do not start as a type does are not cast. -/
theorem Untyped.uncast {list : List Lexeme} (untyped : Untyped list) (some : list ≠ [])
    : Uncast list := by
  obtain ⟨first, others, rfl⟩ := List.exists_cons_of_ne_nil some
  intro rest behind type read
  have other (type : CType) : type.words.isPrefixOf? (first :: (others ++ rest)) = none := by
    have different := untyped first rfl type
    cases type with
    | unsigned | floating =>
        rw [CType.words, List.isPrefixOf?, if_neg]
        rw [beq_iff_eq]
        intro same
        exact different (congrArg Option.some same)
  rw [readType?, List.cons_append] at read
  simp only [List.findSome?, other, Option.map_none] at read
  cases read

/-- A text is an expression wherever a separator follows it, and its operators bind at least as
strongly as some strength. It does not start with a type, so parentheses around it are no cast.
-/
def Forms (level : Nat) (text : String) (expression : Expression) : Prop :=
  ∃ list, Lexes text.toList list ∧ Spelled level list expression ∧ Untyped list

variable {level : Nat} {text other name : String} {expression second : Expression}

-----------------------------------------------------------------------------------------
-- Names and numbers
-----------------------------------------------------------------------------------------

/-- Types are words, so marks and numbers start none. -/
theorem untyped_of_kind {first : Lexeme} (kind : first.kind ≠ .name) (others : List Lexeme)
    : Untyped (first :: others) := by
  rintro _ ⟨⟩ type same
  cases type with
  | unsigned | floating => exact kind (congrArg Lexeme.kind (Option.some.inj same)).symm

/-- A word that starts with no digit and is no type. -/
structure IsName (name : String) : Prop where
  word : IsWord name
  letter : isNumber name = false
  other : name ∉ typeWords

theorem IsName.of_free (word : IsWord name) (free : ¬IsReserved name) : IsName name := by
  simp only [IsReserved, not_or, Bool.not_eq_true] at free
  exact ⟨word, free.1, free.2.1⟩

theorem IsName.untyped (named : IsName name) (others : List Lexeme)
    : Untyped (⟨.name, name.toList⟩ :: others) := by
  have types : ∀ type : CType, ∃ text ∈ typeWords, type.words.head? = some (Code.word text) := by
    intro type
    cases type with
    | unsigned => exact ⟨_, by decide, rfl⟩
    | floating dtype => exact ⟨dtype.cType, by cases dtype <;> decide, rfl⟩
  rintro _ ⟨⟩ type same
  obtain ⟨text, known, starts⟩ := types type
  rw [starts] at same
  obtain rfl := String.toList_injective (congrArg Lexeme.chars (Option.some.inj same))
  exact named.other known

/-- A word that starts with no digit is one name. -/
theorem lexes_name (word : IsWord name) (letter : isNumber name = false)
    : Lexes name.toList [⟨.name, name.toList⟩] := by
  have all := word.all
  obtain ⟨first, rest, same⟩ := List.exists_cons_of_ne_nil
    (mt String.toList_eq_nil_iff.mp word.nonempty)
  rw [isNumber, same] at letter
  rw [same] at all ⊢
  have single := lexes_word all
  rwa [show first.isDigit = false from letter] at single

theorem IsName.lexes (named : IsName name) : Lexes name.toList [⟨.name, name.toList⟩] :=
  lexes_name named.word named.letter

theorem forms_name (named : IsName name) : Forms Operator.tightest name (.named name.toList) :=
  ⟨_, named.lexes, .named _, named.untyped _⟩

/-- Decimal digits are one number. -/
theorem lexes_toDigits (number : Nat)
    : Lexes (Nat.toDigits 10 number) [⟨.number, Nat.toDigits 10 number⟩] := by
  have all := Text.isDigit_toDigits number
  have words : (Nat.toDigits 10 number).all isWordChar = true :=
    List.all_eq_true.mpr fun char member => isWordChar_of_isDigit (all char member)
  obtain ⟨first, others, same⟩ := Text.toDigits_eq_cons number
  rw [same] at all words ⊢
  have single := lexes_word words
  rwa [if_pos (all first List.mem_cons_self)] at single

theorem forms_number (lexed : Lexes text.toList [⟨.number, text.toList⟩])
    : Forms Operator.tightest text (.number text.toList) :=
  ⟨_, lexed, .number _, untyped_of_kind (by simp) _⟩

theorem forms_repr (number : Nat)
    : Forms Operator.tightest number.repr (.number (Nat.toDigits 10 number)) := by
  have lexed := lexes_toDigits number
  rw [← Nat.toList_repr] at lexed ⊢
  exact forms_number lexed

-----------------------------------------------------------------------------------------
-- Operands and operators
-----------------------------------------------------------------------------------------

/-- Two pieces with an operator and blanks between them. -/
theorem Lexes.infixed {before after : List Char} {list more : List Lexeme}
    (first : Lexes before list) (op : Operator) (others : Lexes after more)
    : Lexes (before ++ ' ' :: (op.chars ++ ' ' :: after)) (list ++ ⟨.mark, op.chars⟩ :: more) := by
  have single : Lexes op.chars [⟨.mark, op.chars⟩] := by
    cases op <;> exact lexes_of_unquoted (by decide) rfl
  exact first.spaced (single.spaced others)

/-- Where stronger operators may stand, weaker ones may. -/
theorem Forms.weaken (forms : Forms level text expression) {weaker : Nat} (less : weaker ≤ level)
    : Forms weaker text expression := by
  obtain ⟨list, lexed, spelled, untyped⟩ := forms
  exact ⟨list, lexed, spelled.weaken less, untyped⟩

theorem Forms.element (index : Forms level text expression) (named : IsName name)
    : Forms Operator.tightest (name ++ "[" ++ text ++ "]") (.element name.toList expression) := by
  obtain ⟨list, lexed, spelled, _⟩ := index
  have opens : '[' ∈ separators := by decide
  have closes : ']' ∈ separators := by decide
  have whole := named.lexes.append opens (lexed.append closes lexes_nil)
  refine ⟨_, ?_, .element name.toList (spelled.weaken (Nat.zero_le _)), named.untyped _⟩
  simpa [show lexemes ['['] = [mark '['] from rfl, show lexemes [']'] = [mark ']'] from rfl]
    using whole

theorem Forms.parentheses (inner : Forms level text expression)
    : Forms Operator.tightest ("(" ++ text ++ ")") expression := by
  obtain ⟨list, lexed, spelled, untyped⟩ := inner
  have opens : '(' ∈ separators := by decide
  have closes : ')' ∈ separators := by decide
  have whole := (lexed.append closes lexes_nil).behind opens
  obtain ⟨first, others, rfl, _⟩ := spelled.exists_cons
  have uncast := untyped.uncast (List.cons_ne_nil first others)
  refine ⟨_, ?_, .parentheses uncast (spelled.weaken (Nat.zero_le _)),
    untyped_of_kind (by decide) _⟩
  simpa [show lexemes ['('] = [mark '('] from rfl, show lexemes [')'] = [mark ')'] from rfl]
    using whole

theorem forms_call (named : IsName name)
    : Forms Operator.tightest (name ++ "()") (.call name.toList .none) := by
  have opens : '(' ∈ separators := by decide
  have closes : Lexes [')'] [mark ')'] := lexes_of_unquoted (by decide) rfl
  have whole := named.lexes.append opens closes
  refine ⟨_, ?_, .call name.toList, named.untyped _⟩
  simpa [show lexemes ['('] = [mark '('] from rfl] using whole

theorem Forms.callOne (argument : Forms level text expression) (named : IsName name)
    : Forms Operator.tightest (name ++ "(" ++ text ++ ")")
        (.call name.toList (.cons expression .none)) := by
  obtain ⟨list, lexed, spelled, _⟩ := argument
  have opens : '(' ∈ separators := by decide
  have closes : ')' ∈ separators := by decide
  have whole := named.lexes.append opens (lexed.append closes lexes_nil)
  refine ⟨_, ?_, .callOne name.toList (spelled.weaken (Nat.zero_le _)), named.untyped _⟩
  simpa [show lexemes ['('] = [mark '('] from rfl, show lexemes [')'] = [mark ')'] from rfl]
    using whole

theorem Forms.callTwo (first : Forms level text expression) {weaker : Nat}
    (others : Forms weaker other second) (named : IsName name)
    : Forms Operator.tightest (name ++ "(" ++ text ++ ", " ++ other ++ ")")
        (.call name.toList (.cons expression (.cons second .none))) := by
  obtain ⟨list, lexed, spelled, _⟩ := first
  obtain ⟨more, lexedMore, spelledMore, _⟩ := others
  have opens : '(' ∈ separators := by decide
  have comma : ',' ∈ separators := by decide
  have closes : ')' ∈ separators := by decide
  have arguments :=
    lexed.append comma (lexes_nil.spaced (lexedMore.append closes lexes_nil))
  have whole := named.lexes.append opens arguments
  refine ⟨_, ?_,
    .callTwo name.toList (spelled.weaken (Nat.zero_le _)) (spelledMore.weaken (Nat.zero_le _)),
    named.untyped _⟩
  simpa [show lexemes ['('] = [mark '('] from rfl, show lexemes [')'] = [mark ')'] from rfl,
    show lexemes [','] = [mark ','] from rfl] using whole

/-- A minus in front of an operand that starts with none. -/
theorem Forms.negate (operand : Forms Operator.tightest text expression)
    (apart : ∀ first ∈ text.toList.head?, first ∉ ['-', '=', '>'])
    : Forms Operator.tightest ("-" ++ text) (.negate expression) := by
  obtain ⟨list, lexed, spelled, _⟩ := operand
  obtain ⟨first, others, rfl, _⟩ := spelled.exists_cons
  obtain ⟨char, rest, same⟩ : ∃ char rest, text.toList = char :: rest := by
    refine List.exists_cons_of_ne_nil fun empty => ?_
    have none := lexed.lexemes_eq
    rw [empty] at none
    cases none
  rw [same] at apart lexed
  refine ⟨_, ?_, spelled.negate, untyped_of_kind (by decide) _⟩
  have signed := lexed.negated (apart char rfl)
  rw [← same] at signed
  simpa using signed

theorem Forms.cast {type : CType} {front : String} (typed : Lexes front.toList type.words)
    (operand : Forms Operator.tightest text expression)
    : Forms Operator.tightest ("(" ++ front ++ ")" ++ text) (.cast type expression) := by
  obtain ⟨list, lexed, spelled, _⟩ := operand
  have opens : '(' ∈ separators := by decide
  have closes : ')' ∈ separators := by decide
  have whole := (typed.append closes lexed).behind opens
  refine ⟨_, ?_, .cast type spelled, untyped_of_kind (by decide) _⟩
  simpa [show lexemes ['('] = [mark '('] from rfl, show lexemes [')'] = [mark ')'] from rfl]
    using whole

/-- Two operands with an operator and blanks between them. -/
theorem Forms.binary (op : Operator) {joint : String}
    (between : joint.toList = ' ' :: (op.chars ++ [' '])) (left : Forms op.strength text expression)
    (right : Forms (op.strength + 1) other second)
    : Forms op.strength (text ++ joint ++ other) (.binary op expression second) := by
  obtain ⟨list, lexed, spelled, untyped⟩ := left
  obtain ⟨more, lexedMore, spelledMore, _⟩ := right
  refine ⟨_, ?_, .binary op spelled spelledMore, ?_⟩
  · simpa [between] using lexed.infixed op lexedMore
  · obtain ⟨first, others, rfl, _⟩ := spelled.exists_cons
    exact untyped

/-- A text that is an expression is read as this expression. -/
theorem Forms.read_eq (forms : Forms level text expression)
    : Expression.read text.toList = some expression := by
  obtain ⟨list, lexed, spelled, _⟩ := forms
  exact spelled.read_eq lexed.lexemes_eq

end LazyTensor.Code
