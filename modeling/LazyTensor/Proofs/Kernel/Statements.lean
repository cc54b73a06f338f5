import LazyTensor.Proofs.Kernel.Operands
import LazyTensor.Proofs.Kernel.Scoping

/-! Statements read back. A reader of kernels gets through the lines of a statement and finds its
steps in them, if the names that it uses are declared where it uses them and none is declared again.
-/

namespace LazyTensor.Kernel

open Code

variable {dtype : DType} {list more : List Lexeme} {level weaker : Nat}
  {text operand : String} {target value : Expression}

-----------------------------------------------------------------------------------------
-- Assignments
-----------------------------------------------------------------------------------------

/-- The marks of assignments. -/
def joints : List (List Char) := [['='], ['+', '=']]

/-- An assignment to a target, up to its semicolon. -/
theorem lexes_assignment {before after : List Char} (first : Lexes before list) {joint : List Char}
    (known : joint ∈ joints) (second : Lexes after more)
    : Lexes (before ++ ' ' :: (joint ++ ' ' :: (after ++ [';'])))
        (list ++ ⟨.mark, joint⟩ :: (more ++ [mark ';'])) := by
  have single : Lexes joint [⟨.mark, joint⟩] := by
    rcases List.mem_pair.mp known with rfl | rfl
    all_goals exact lexes_of_unquoted (by decide) rfl
  have ends : ';' ∈ separators := by decide
  have behind := second.append ends lexes_nil
  rw [List.append_nil] at behind
  exact first.spaced (single.spaced behind)

/-- The target and the value of an assignment are read up to its semicolon. -/
theorem readStatement_parts (spelled : Spelled level list target) {joint : List Char}
    (known : joint ∈ joints) (others : Spelled weaker more value) {fuel : Nat}
    (enough : 4 * (list.length + more.length) < fuel) (rest : List Lexeme)
    : readExpression fuel 0 (list ++ ⟨.mark, joint⟩ :: (more ++ mark ';' :: rest))
        = some (target, ⟨.mark, joint⟩ :: (more ++ mark ';' :: rest))
      ∧ readExpression fuel 0 (more ++ mark ';' :: rest) = some (value, mark ';' :: rest) := by
  refine ⟨?_, others.read_mark rfl (by decide) (by omega) rest⟩
  rcases List.mem_pair.mp known with rfl | rfl
  all_goals exact spelled.read_mark rfl (by decide) (by omega) _

/-- An assignment is read as the statement of its target and its value, behind a type or not. -/
theorem readStatement_assignment (spelled : Spelled level list target) {joint : List Char}
    (known : joint ∈ joints) (others : Spelled weaker more value) {input rest : List Lexeme}
    {typed : Option (List Lexeme)} (front : [word dtype.cType].isPrefixOf? input = typed)
    (same : typed.getD input = list ++ ⟨.mark, joint⟩ :: (more ++ mark ';' :: rest))
    (long : (typed.getD input).length ≤ input.length)
    : readStatement dtype input = (statement? dtype typed.isSome joint target value).map (·, rest) := by
  have enough : 4 * (list.length + more.length) < fuelFor input := by
    rw [same] at long
    simp only [List.length_append, List.length_cons] at long
    rw [fuelFor]
    omega
  obtain ⟨left, right⟩ := readStatement_parts spelled known others enough rest
  rw [readStatement, front, same, left]
  change (readExpression (fuelFor input) 0 (more ++ mark ';' :: rest)).bind _ = _
  rw [right, Option.bind_some]
  dsimp only
  cases statement? dtype typed.isSome joint target value with
  | none => rfl
  | some body => simp [List.isPrefixOf?]

-----------------------------------------------------------------------------------------
-- Lines
-----------------------------------------------------------------------------------------

/-- A text is one line of a body: it starts with a name, as no brace and no loop does, and it is read
as a statement.
-/
def IsLine (dtype : DType) (text : String) (body : Stmt) : Prop :=
  ∃ list,
    Lexes text.toList list
    ∧ (∃ name ≠ "for".toList, ∃ others, list = ⟨.name, name⟩ :: others)
    ∧ ∀ rest, readStatement dtype (list ++ rest) = some (body, rest)

/-- An assignment to what starts with a name is a line. -/
theorem isLine_assignment (first : Forms level text target)
    (named : ∃ name ≠ "for".toList, ∃ others, lexemes text.toList = ⟨.name, name⟩ :: others)
    {joint : String} {sign : List Char} (between : joint.toList = ' ' :: (sign ++ [' ']))
    (known : sign ∈ joints) (second : Forms weaker operand value) {body : Stmt}
    (read : statement? dtype false sign target value = some body)
    : IsLine dtype (text ++ joint ++ operand ++ ";") body := by
  obtain ⟨list, lexed, spelled, untyped⟩ := first
  obtain ⟨more, lexedMore, spelledMore, _⟩ := second
  obtain ⟨name, other, others, same⟩ := named
  obtain rfl := lexed.lexemes_eq.symm.trans same
  refine ⟨⟨.name, name⟩ :: (others ++ ⟨.mark, sign⟩ :: (more ++ [mark ';'])), ?_,
    ⟨name, other, _, rfl⟩, fun rest => ?_⟩
  · have whole := lexes_assignment lexed known lexedMore
    simpa [between] using whole
  · have front
        : [word dtype.cType].isPrefixOf?
            (⟨.name, name⟩ :: others ++ ⟨.mark, sign⟩ :: (more ++ mark ';' :: rest))
          = none := by
      rw [List.cons_append, List.isPrefixOf?, if_neg]
      rw [beq_iff_eq]
      intro same
      exact untyped _ rfl (.floating dtype) (congrArg some same)
    have whole := readStatement_assignment spelled known spelledMore front rfl le_rfl
    rw [Option.isSome_none, read] at whole
    simpa using whole

/-- A declaration with a value is a line. -/
theorem isLine_declaration (first : Forms level text target) {joint : String} {sign : List Char}
    (between : joint.toList = ' ' :: (sign ++ [' '])) (known : sign ∈ joints)
    (second : Forms weaker operand value) {body : Stmt}
    (read : statement? dtype true sign target value = some body)
    : IsLine dtype (dtype.cType ++ " " ++ text ++ joint ++ operand ++ ";") body := by
  obtain ⟨list, lexed, spelled, _⟩ := first
  obtain ⟨more, lexedMore, spelledMore, _⟩ := second
  have type : Lexes dtype.cType.toList [word dtype.cType] ∧ dtype.cType.toList ≠ "for".toList := by
    cases dtype
    all_goals exact ⟨lexes_of_unquoted (by decide) rfl, by decide⟩
  refine ⟨word dtype.cType :: (list ++ ⟨.mark, sign⟩ :: (more ++ [mark ';'])), ?_,
    ⟨_, type.2, _, rfl⟩, fun rest => ?_⟩
  · have whole := type.1.spaced (lexes_assignment lexed known lexedMore)
    simpa [between] using whole
  · have front (input : List Lexeme)
        : [word dtype.cType].isPrefixOf? (word dtype.cType :: input) = some input := by
      simp [List.isPrefixOf?]
    have whole :=
      readStatement_assignment spelled known spelledMore
        (front (list ++ ⟨.mark, sign⟩ :: (more ++ mark ';' :: rest))) rfl (Nat.le_succ _)
    rw [Option.isSome_some, read] at whole
    simpa [word] using whole

-----------------------------------------------------------------------------------------
-- Innermost statements
-----------------------------------------------------------------------------------------

theorem isName_out : IsName "out" := ⟨⟨by decide, by decide⟩, by decide, by decide⟩

theorem isName_acc : IsName "acc" := ⟨⟨by decide, by decide⟩, by decide, by decide⟩

/-- The element of the output as an expression. -/
def outputElement (address : Address) : Expression := .element "out".toList address.expression

theorem forms_output (address : Address)
    : Forms Operator.tightest address.output (outputElement address) := by
  have forms := (forms_address address).element isName_out
  have text : address.output = "out" ++ "[" ++ address.text ++ "]" := rfl
  rw [text]
  exact forms

/-- What starts with a name and a bracket has the name as its first element. -/
theorem lexemes_output (address : Address)
    : ∃ name ≠ "for".toList, ∃ others, lexemes address.output.toList = ⟨.name, name⟩ :: others := by
  have text : address.output.toList = "out".toList ++ '[' :: (address.text ++ "]").toList := by
    simp [Address.output]
  have whole := isName_out.lexes.lexemes_append '[' (by decide) (address.text ++ "]").toList
  rw [← text] at whole
  exact ⟨_, by decide, _, whole⟩

theorem equals : " = ".toList = ' ' :: (['='] ++ [' ']) := rfl

theorem adds : " += ".toList = ' ' :: (['+', '='] ++ [' ']) := rfl

/-- An expression that is assigned to an element is stored there. -/
theorem assigned?_storable (address : Address) {expr : Expr} (storable : Storable value)
    (read : value? dtype value = some expr)
    : assigned? dtype address.expression value = some (.store address.moving expr) := by
  rw [assigned?, address?_expression]
  simp only [Option.bind_eq_bind, Option.bind_some]
  split
  · next name => exact absurd rfl (storable.1 name)
  · next name total operand =>
      rw [if_neg, read]
      · rfl
      · rintro ⟨_, rfl⟩
        exact storable.2 _ _ _ rfl
  · rw [read]
    rfl

theorem isLine_store (address : Address) {expr : Expr} (legible : expr.Legible)
    : IsLine dtype (address.output ++ " = " ++ expr.text dtype ++ ";")
        (.store address.moving (expr.printed dtype)) := by
  obtain ⟨value, forms, read, storable⟩ := legible.reads dtype
  exact isLine_assignment (forms_output address) (lexemes_output address) equals (by decide) forms
    (assigned?_storable address storable read)

theorem isLine_fold (op : Reduction) (address : Address) {expr : Expr} (legible : expr.Legible)
    : IsLine dtype (Spelling.accumulate dtype op address.output (expr.text dtype))
        (.fold op address.moving (expr.printed dtype)) := by
  obtain ⟨value, forms, read, _⟩ := legible.reads dtype
  cases op with
  | sum =>
      refine isLine_assignment (forms_output address) (lexemes_output address) adds (by decide) forms
        ?_
      rw [outputElement, statement?, if_pos rfl, if_neg (by decide), if_pos rfl,
        address?_expression, read]
      rfl
  | max =>
      have named := isName_mathFunction dtype (by decide : "fmax" ∈ _)
      have called := (forms_output address).callTwo forms named
      have assigned
          : statement? dtype false ['='] (outputElement address)
              (.call (dtype.mathFunction "fmax").toList
                (.cons (outputElement address) (.cons value .none)))
            = some (.fold .max address.moving (expr.printed dtype)) := by
        rw [outputElement, statement?, if_pos rfl, if_pos rfl, assigned?, address?_expression]
        simp only [Option.bind_eq_bind, Option.bind_some]
        rw [if_pos (by simp), read]
        rfl
      have line :=
        isLine_assignment (forms_output address) (lexemes_output address) equals (by decide) called
          assigned
      have ends : ");" = ")" ++ ";" := rfl
      rw [Spelling.accumulate, ends]
      simpa only [String.append_assoc] using line

theorem isLine_startSum {expr : Expr} (legible : expr.Legible)
    : IsLine dtype (dtype.cType ++ " acc = " ++ expr.text dtype ++ ";")
        (.startSum (expr.printed dtype)) := by
  obtain ⟨value, forms, read, _⟩ := legible.reads dtype
  have assigned
      : statement? dtype true ['='] (.named "acc".toList) value
        = some (.startSum (expr.printed dtype)) := by
    rw [statement?, if_pos ⟨rfl, rfl⟩, read]
    rfl
  have line := isLine_declaration (forms_name isName_acc) equals (by decide) forms assigned
  have starts : " acc = " = " " ++ ("acc" ++ " = ") := rfl
  rw [starts]
  simpa only [String.append_assoc] using line

/-- Two elements that are multiplied into the sum. -/
theorem isLine_addProduct (left right : Nat) (leftAddress rightAddress : Address)
    : IsLine dtype
        ("acc += " ++ Expr.text dtype (.read left leftAddress) ++ " * "
          ++ Expr.text dtype (.read right rightAddress) ++ ";")
        (.addProduct (.read left leftAddress.moving) (.read right rightAddress.moving)) := by
  have times : " * ".toList = ' ' :: (Operator.mul.chars ++ [' ']) := rfl
  have assigned
      : statement? dtype false ['+', '='] (.named "acc".toList)
          (.binary .mul (element left leftAddress) (element right rightAddress))
        = some (.addProduct (.read left leftAddress.moving) (.read right rightAddress.moving)) := by
    rw [statement?, if_pos ⟨rfl, rfl⟩, value?_element, value?_element]
    rfl
  have line :=
    isLine_assignment (forms_name isName_acc) ⟨_, by decide, _, isName_acc.lexes.lexemes_eq⟩ adds
      (by decide) (forms_elements times left right leftAddress rightAddress) assigned
  have starts : "acc += " = "acc" ++ " += " := rfl
  rw [starts, Expr.text, Expr.text]
  simpa only [String.append_assoc] using line

theorem isLine_storeSum (address : Address)
    : IsLine dtype (address.output ++ " = acc;") (.storeSum address.moving) := by
  have assigned
      : statement? dtype false ['='] (outputElement address) (.named "acc".toList)
        = some (.storeSum address.moving) := by
    rw [outputElement, statement?, if_pos rfl, if_pos rfl, assigned?, address?_expression]
    rfl
  have line :=
    isLine_assignment (forms_output address) (lexemes_output address) equals (by decide)
      (forms_name isName_acc) assigned
  have ends : " = acc;" = " = " ++ "acc" ++ ";" := rfl
  rw [ends]
  simpa only [String.append_assoc] using line

-----------------------------------------------------------------------------------------
-- Heads of loops
-----------------------------------------------------------------------------------------

/-- The elements of the head of a loop. -/
def headLexemes (counter bound : Nat) : List Lexeme :=
  let name : Lexeme := ⟨.name, (counterName counter).toList⟩
  [word "for", mark '(', word "long", word "long", name, mark '=', ⟨.number, ['0']⟩, mark ';', name,
    mark '<', ⟨.number, Nat.toDigits 10 bound⟩, mark ';', name, ⟨.mark, ['+', '+']⟩, mark ')',
    mark '\x7b']

theorem lexes_loopHead (counter bound : Nat)
    : Lexes (Writer.loopHead counter bound).toList (headLexemes counter bound) := by
  have semicolon : ';' ∈ separators := by decide
  have closing : ')' ∈ separators := by decide
  have name := (isName_counterName counter).lexes
  have starts
      : Lexes "for (long long".toList [word "for", mark '(', word "long", word "long"] :=
    lexes_of_unquoted (by decide) rfl
  have zero : Lexes ['=', ' ', '0'] [mark '=', ⟨.number, ['0']⟩] :=
    lexes_of_unquoted (by decide) rfl
  have less : Lexes ['<'] [mark '<'] := lexes_of_unquoted (by decide) rfl
  have ends : Lexes ['\x7b'] [mark '\x7b'] := lexes_of_unquoted (by decide) rfl
  have counted
      : Lexes ((counterName counter).toList ++ ['+', '+'])
          [⟨.name, (counterName counter).toList⟩, ⟨.mark, ['+', '+']⟩] := by
    have all := (isWord_counterName counter).all
    have chars : (counterName counter).toList = 'r' :: ("idx" ++ counter.repr).toList := by
      simp [counterName]
    rw [chars] at all ⊢
    exact lexes_counted all rfl
  have first := (starts.spaced name).spaced zero
  have second := (lexes_nil.spaced name).spaced (less.spaced (lexes_toDigits bound))
  have third := (lexes_nil.spaced counted).append closing (lexes_nil.spaced ends)
  have whole := (first.append semicolon second).append semicolon third
  have front : "for (long long ".toList = "for (long long".toList ++ [' '] := by decide
  have text
      : (Writer.loopHead counter bound).toList
        = "for (long long".toList ++ ' ' :: (counterName counter).toList ++ ' ' :: ['=', ' ', '0']
          ++ ';' :: ([] ++ ' ' :: (counterName counter).toList
            ++ ' ' :: (['<'] ++ ' ' :: Nat.toDigits 10 bound))
          ++ ';' :: ([] ++ ' ' :: ((counterName counter).toList ++ ['+', '+'])
            ++ ')' :: ([] ++ ' ' :: ['\x7b'])) := by
    change ("for (long long " ++ counterName counter ++ " = 0; " ++ counterName counter ++ " < "
      ++ bound.repr ++ "; " ++ counterName counter ++ "++) \x7b").toList = _
    simp only [String.toList_append, Nat.toList_repr, front]
    simp
  rw [text]
  exact whole

/-- The head of a loop is read with its counter and its bound. -/
theorem readHead_headLexemes (counter bound : Nat) (rest : List Lexeme)
    : readHead (headLexemes counter bound ++ rest) = some (counter, bound, rest) := by
  have front (input : List Lexeme)
      : [word "for", mark '(', word "long", word "long"].isPrefixOf?
          (word "for" :: mark '(' :: word "long" :: word "long" :: input)
        = some input := by
    simp [List.isPrefixOf?]
  have starts (name : List Char) (input : List Lexeme)
      : [mark '=', ⟨.number, ['0']⟩, mark ';', ⟨.name, name⟩, mark '<'].isPrefixOf?
          (mark '=' :: ⟨.number, ['0']⟩ :: mark ';' :: ⟨.name, name⟩ :: mark '<' :: input)
        = some input := by
    simp [List.isPrefixOf?]
  have steps (name : List Char) (input : List Lexeme)
      : [mark ';', ⟨.name, name⟩, ⟨.mark, ['+', '+']⟩, mark ')', mark '\x7b'].isPrefixOf?
          (mark ';' :: ⟨.name, name⟩ :: ⟨.mark, ['+', '+']⟩ :: mark ')' :: mark '\x7b' :: input)
        = some input := by
    simp [List.isPrefixOf?]
  simp only [readHead, headLexemes, List.cons_append, List.nil_append, front, starts, steps,
    numbered?_counterName, natural?_toDigits, Option.bind_eq_bind, Option.bind_some]

-----------------------------------------------------------------------------------------
-- Blocks
-----------------------------------------------------------------------------------------

/-- With some names declared, a reader gets through elements as steps of a block, and goes on behind
them with the names that are declared there.
-/
structure ReadsBlock (dtype : DType) (names : List String) (list : List Lexeme) (steps : List Stmt)
    (behind : List String) : Prop where
  short : steps.length ≤ list.length
  read
    : ∀ fuel > list.length, ∀ rest,
        readBlock dtype fuel names (list ++ rest)
        = (readBlock dtype (fuel - steps.length) behind rest).map fun (others, rest) =>
            (steps ++ others, rest)

variable {names between behind : List String} {steps others : List Stmt}

theorem readsBlock_nil (dtype : DType) (names : List String) : ReadsBlock dtype names [] [] names where
  short := le_rfl
  read fuel _ rest := by
    rw [List.length_nil, Nat.sub_zero, List.nil_append]
    exact Option.map_id'.symm

theorem ReadsBlock.append (first : ReadsBlock dtype names list steps between)
    (second : ReadsBlock dtype between more others behind)
    : ReadsBlock dtype names (list ++ more) (steps ++ others) behind where
  short := by
    rw [List.length_append, List.length_append]
    exact Nat.add_le_add first.short second.short
  read fuel enough rest := by
    have shorter := first.short
    rw [List.length_append] at enough
    rw [List.append_assoc, first.read fuel (by omega), second.read _ (by omega), Option.map_map,
      List.length_append, Nat.sub_add_eq]
    refine congrArg (Option.map · _) (funext fun pair => ?_)
    simp

/-- A line whose names are declared, and that declares none again, is one step. -/
theorem IsLine.readsBlock {body : Stmt} (line : IsLine dtype text body) (known : body.names ⊆ names)
    (fresh : ∀ name ∈ body.declared, name ∉ names)
    : ∃ list, Lexes text.toList list ∧ ReadsBlock dtype names list [body] (body.declared ++ names) := by
  obtain ⟨_, lexed, ⟨name, other, others, rfl⟩, read⟩ := line
  refine ⟨_, lexed, Nat.le_add_left _ _, fun fuel enough rest => ?_⟩
  obtain ⟨fuel, rfl⟩ := Nat.exists_eq_add_of_lt (Nat.zero_lt_of_lt enough)
  have inside : [mark '\x7d'].isPrefixOf? (⟨.name, name⟩ :: others ++ rest) = none := by
    simp [List.isPrefixOf?, mark]
  have plain : readHead (⟨.name, name⟩ :: others ++ rest) = none := by
    have front
        : [word "for", mark '(', word "long", word "long"].isPrefixOf?
            (⟨.name, name⟩ :: others ++ rest)
          = none := by
      rw [List.cons_append, List.isPrefixOf?, if_neg]
      rw [beq_iff_eq]
      intro same
      exact other (congrArg Lexeme.chars same).symm
    rw [readHead, front]
    rfl
  rw [Nat.zero_add, readBlock, inside, plain, read]
  simp only [Option.bind_eq_bind, Option.bind_some, if_pos (And.intro known fresh),
    List.length_singleton, Nat.add_sub_cancel]
  cases readBlock dtype fuel (body.declared ++ names) rest with
  | none => rfl
  | some => rfl

/-- A loop is one step, whose body has the counter declared. -/
theorem ReadsBlock.loop {counter : Nat}
    (inner : ReadsBlock dtype (counterName counter :: names) list steps behind) (bound : Nat)
    : ReadsBlock dtype names (headLexemes counter bound ++ list ++ [mark '\x7d'])
        [.loop counter bound (.ofList steps)] names where
  short := by
    rw [List.length_append]
    exact Nat.le_add_left _ _
  read fuel enough rest := by
    simp only [List.length_append, List.length_singleton] at enough
    obtain ⟨fuel, rfl⟩ := Nat.exists_eq_add_of_lt (Nat.zero_lt_of_lt enough)
    have head (input : List Lexeme)
        : [mark '\x7d'].isPrefixOf? (headLexemes counter bound ++ input) = none := by
      simp [List.isPrefixOf?, headLexemes, mark, word]
    have closes (fuel : Nat) (names : List String)
        : readBlock dtype (fuel + 1) names (mark '\x7d' :: rest) = some ([], rest) := by
      simp [readBlock, List.isPrefixOf?]
    have body
        : readBlock dtype fuel (counterName counter :: names) (list ++ mark '\x7d' :: rest)
          = some (steps, rest) := by
      have short := inner.short
      obtain ⟨left, same⟩ := Nat.exists_eq_add_of_lt (show 0 < fuel - steps.length by omega)
      rw [inner.read fuel (by omega), same, Nat.zero_add, closes, Option.map_some]
      simp
    rw [Nat.zero_add, List.append_assoc, List.append_assoc, readBlock, head, readHead_headLexemes]
    simp only [List.cons_append, List.nil_append, Option.bind_eq_bind, body, Option.bind_some,
      List.length_singleton, Nat.add_sub_cancel]
    cases readBlock dtype fuel names rest with
    | none => rfl
    | some => rfl

-----------------------------------------------------------------------------------------
-- Bodies
-----------------------------------------------------------------------------------------

/-- Expressions of a statement are as kernels have them, products are of elements of sources, and the
local sum is declared once.
-/
def Stmt.Legible : List String → Stmt → Prop
  | _, skip => True
  | names, seq first second => first.Legible names ∧ second.Legible (first.declared ++ names)
  | names, loop counter _ body => body.Legible (counterName counter :: names)
  | _, store _ value => value.Legible
  | _, fold _ _ value => value.Legible
  | names, startSum value => value.Legible ∧ "acc" ∉ names
  | _, addProduct (.read ..) (.read ..) => True
  | _, addProduct .. => False
  | _, storeSum _ => True

theorem Address.names_moving (address : Address) : address.moving.names ⊆ address.names :=
  List.map_subset _ (List.filter_subset_self address)

/-- What is printed of an expression needs no more declared. -/
theorem Expr.names_printed (dtype : DType) (expr : Expr) : (expr.printed dtype).names ⊆ expr.names := by
  induction expr with
  | constant | draw => exact List.Subset.refl _
  | read source address => exact List.cons_subset_cons _ address.names_moving
  | unary op operand ih => exact ih
  | binary op left right ihLeft ihRight =>
      exact List.append_subset.mpr
        ⟨List.Subset.trans ihLeft (List.subset_append_left _ _),
          List.Subset.trans ihRight (List.subset_append_right _ _)⟩

theorem Stmt.names_line (dtype : DType) (body : Stmt) : (body.line dtype).names ⊆ body.names := by
  have both {front back more others : List String} (first : front ⊆ more) (second : back ⊆ others)
      : front ++ back ⊆ more ++ others :=
    List.append_subset.mpr
      ⟨List.Subset.trans first (List.subset_append_left _ _),
        List.Subset.trans second (List.subset_append_right _ _)⟩
  cases body with
  | store address value | fold op address value =>
      exact List.cons_subset_cons _ (both address.names_moving (value.names_printed dtype))
  | startSum value => exact value.names_printed dtype
  | addProduct left right =>
      exact List.cons_subset_cons _ (both (left.names_printed dtype) (right.names_printed dtype))
  | storeSum address =>
      exact List.cons_subset_cons _ (List.cons_subset_cons _ address.names_moving)
  | skip | seq | loop => exact List.Subset.refl _

/-- A line behind others. -/
theorem lexesLines_line {writer : Writer} {front : List Lexeme}
    (written : LexesLines writer.lines front)
    (lexed : Lexes text.toList list)
    : LexesLines (writer.line text).lines (front ++ list) := by
  have indented : Lexes (Writer.indent writer.depth ++ text).toList list := by
    rw [String.toList_append, Writer.indent, String.toList_ofList]
    exact lexed.indented _
  have whole := written.append indented.line
  simpa [Writer.lines, Writer.line] using whole

/-- What writes lines writes some that are read as steps. -/
def Writes (dtype : DType) (names : List String) (write : Writer → Writer) (steps : List Stmt)
    (behind : List String) : Prop :=
  ∃ list,
    ReadsBlock dtype names list steps behind
    ∧ ∀ (writer : Writer) front,
        LexesLines writer.lines front → LexesLines (write writer).lines (front ++ list)

theorem IsLine.writes {body : Stmt} (line : IsLine dtype text body) (known : body.names ⊆ names)
    (fresh : ∀ name ∈ body.declared, name ∉ names)
    : Writes dtype names (·.line text) [body] (body.declared ++ names) := by
  obtain ⟨list, lexed, reads⟩ := line.readsBlock known fresh
  exact ⟨list, reads, fun writer front written => lexesLines_line written lexed⟩

/-- The lines of a statement are read as its steps, by induction on the statement. -/
theorem Stmt.writes (dtype : DType) {body : Stmt} (allowed : body.Scoped names)
    (legible : body.Legible names)
    : Writes dtype names (body.write dtype) (body.steps dtype) (body.declared ++ names) := by
  have plain : ∀ name ∈ ([] : List String), name ∉ names := by simp
  induction body generalizing names with
  | skip =>
      refine ⟨[], readsBlock_nil dtype names, fun writer front written => ?_⟩
      rw [List.append_nil]
      exact written
  | seq first second ihFirst ihSecond =>
      obtain ⟨list, reads, lexed⟩ := ihFirst allowed.1 legible.1 (by simp)
      obtain ⟨more, readsMore, lexedMore⟩ := ihSecond allowed.2 legible.2 (by simp)
      rw [← List.append_assoc] at readsMore
      refine ⟨list ++ more, reads.append readsMore, fun writer front written => ?_⟩
      rw [← List.append_assoc]
      exact lexedMore _ _ (lexed writer front written)
  | loop counter bound body ih =>
      obtain ⟨list, reads, lexed⟩ := ih allowed legible (by simp)
      refine ⟨_, reads.loop bound, fun writer front written => ?_⟩
      have opened := lexesLines_line written (lexes_loopHead counter bound)
      have inside := lexed (writer.enter counter bound) _ opened
      have brace : Lexes "\x7d".toList [mark '\x7d'] := lexes_of_unquoted (by decide) rfl
      rw [← List.append_assoc, ← List.append_assoc]
      exact lexesLines_line inside brace
  | store address value =>
      have known := List.Subset.trans (names_line dtype (.store address value)) allowed
      exact (isLine_store address legible).writes known plain
  | fold op address value =>
      have known := List.Subset.trans (names_line dtype (.fold op address value)) allowed
      exact (isLine_fold op address legible).writes known plain
  | startSum value =>
      have known := List.Subset.trans (names_line dtype (.startSum value)) allowed
      exact (isLine_startSum legible.1).writes known (List.forall_mem_singleton.mpr legible.2)
  | addProduct left right =>
      have known := List.Subset.trans (names_line dtype (.addProduct left right)) allowed
      cases left with
      | read left leftAddress =>
          cases right with
          | read right rightAddress =>
              exact (isLine_addProduct left right leftAddress rightAddress).writes known plain
          | constant | draw | unary | binary => exact absurd legible id
      | constant | draw | unary | binary => exact absurd legible id
  | storeSum address =>
      have known := List.Subset.trans (names_line dtype (.storeSum address)) allowed
      exact (isLine_storeSum address).writes known plain

end LazyTensor.Kernel
