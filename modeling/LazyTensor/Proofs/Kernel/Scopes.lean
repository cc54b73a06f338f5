import LazyTensor.Proofs.Kernel.Tokens

/-! Scopes of C text. A reader takes one token after the other and keeps the names that the open
blocks declare. The name behind a type is declared: in parentheses for the block that they lead,
elsewhere for the block that is open. Every other name must be declared where it stands, and a brace
that closes needs a block that is open. So what a reader gets through is well scoped.
-/

namespace LazyTensor.Code

/-- Words that name a type or stand behind one. -/
def typeWords : List String := ["void", "float", "double", "long", "unsigned", "restrict"]

/-- The other words of the language that kernels are written with. -/
def keywords : List String := ["static", "inline", "const", "for", "return"]

/-- Functions that texts can call without defining them. -/
def library : List String :=
  ["sin", "sqrt", "exp2", "log2", "fmax", "__builtin_nan", "__builtin_inf",
    "sinf", "sqrtf", "exp2f", "log2f", "fmaxf", "__builtin_nanf", "__builtin_inff"]

/-- Whether a word is a number or a part of one. -/
def isNumber (word : String) : Bool := word.toList.head?.any Char.isDigit

/-- Words that no text declares. -/
def IsReserved (word : String) : Prop :=
  isNumber word = true ∨ word ∈ typeWords ∨ word ∈ keywords ∨ word ∈ library

instance : DecidablePred IsReserved := fun _ => inferInstanceAs (Decidable (_ ∨ _))

/-- A function that a text defines. -/
structure Function where
  name : String
  isStatic : Bool
  parameters : List String
deriving DecidableEq, Repr

/-- What has been read of a statement, or of what leads a block. -/
structure Clause where
  /-- The names that its parentheses declare, newest first. -/
  declared : List String
  /-- How many parentheses are open. -/
  parens : Nat
  /-- Whether the next name is declared. -/
  isTyped : Bool
  isLoop : Bool
  isStatic : Bool
deriving DecidableEq, Repr

/-- Nothing of a statement. -/
def Clause.start : Clause := ⟨[], 0, false, false, false⟩

/-- What a text has declared up to some place. -/
structure Reader where
  /-- The names of the innermost open block, newest first. -/
  block : List String
  /-- The names of the blocks around it, the innermost first and the file last. -/
  outer : List (List String)
  /-- The counters of all loops, newest first. -/
  loops : List String
  /-- The functions, newest first. -/
  functions : List Function
  clause : Clause
deriving DecidableEq, Repr

namespace Reader

/-- In front of a text. -/
def start : Reader := ⟨[], [], [], [], .start⟩

/-- The names that can be used. -/
def visible (reader : Reader) : List String :=
  reader.clause.declared ++ reader.block ++ reader.outer.flatten

/-- Behind anything but a type the next name is used, not declared. -/
def settle (reader : Reader) : Reader :=
  { reader with clause := { reader.clause with isTyped := false } }

theorem settle_eq {reader : Reader} (settled : reader.clause.isTyped = false)
    : reader.settle = reader := by
  obtain ⟨block, outer, loops, functions, ⟨declared, parens, isTyped, isLoop, isStatic⟩⟩ := reader
  cases settled
  rfl

/-- Takes a name behind a type. -/
def declare (reader : Reader) (name : String) : Reader :=
  if reader.clause.parens = 0 then
    { reader.settle with block := name :: reader.block }
  else
    { reader with
      loops := if reader.clause.isLoop then name :: reader.loops else reader.loops
      clause :=
        { reader.clause with declared := name :: reader.clause.declared, isTyped := false } }

/-- Takes a word. -/
def word (reader : Reader) (text : String) : Option Reader :=
  if isNumber text then
    some reader
  else if text ∈ typeWords then
    some { reader with clause := { reader.clause with isTyped := true } }
  else if text ∈ keywords then
    some
      { reader with
        clause :=
          { reader.clause with
            isTyped := false
            isLoop := reader.clause.isLoop || text == "for"
            isStatic := reader.clause.isStatic || text == "static" } }
  else if reader.clause.isTyped then
    some (reader.declare text)
  else if text ∈ library ∨ text ∈ reader.visible then
    some reader
  else
    none

/-- A word that is not reserved is declared behind a type, and elsewhere has to be declared. -/
theorem word_of_free (reader : Reader) {name : String} (free : ¬IsReserved name)
    : reader.word name
      = if reader.clause.isTyped then some (reader.declare name)
        else if name ∈ reader.visible then some reader
        else none := by
  simp only [IsReserved, not_or] at free
  obtain ⟨number, type, keyword, function⟩ := free
  rw [word, if_neg number, if_neg type, if_neg keyword]
  simp only [function, false_or]

/-- Opens a block with the names that lead it. A block of the file is a function, and its name is
the last one that the file declares.
-/
def openBlock (reader : Reader) : Option Reader :=
  let inside : Reader :=
    { reader with
      block := reader.clause.declared
      outer := reader.block :: reader.outer
      clause := .start }
  match reader.outer, reader.block with
  | [], [] => none
  | [], name :: _ =>
      let function := ⟨name, reader.clause.isStatic, reader.clause.declared.reverse⟩
      some { inside with functions := function :: reader.functions }
  | _ :: _, _ => some inside

/-- Closes the innermost block, unless that is the file. -/
def closeBlock (reader : Reader) : Option Reader :=
  match reader.outer with
  | [] => none
  | block :: outer => some { reader with block, outer, clause := .start }

/-- Marks within and between expressions. -/
def joints : List Char := ['+', '-', '*', '/', '=', '<', '>', '^', '.', ',', '[', ']']

/-- Takes a mark. -/
def mark (reader : Reader) (char : Char) : Option Reader :=
  let parens := reader.clause.parens
  if char = '(' then
    some { reader with clause := { reader.clause with parens := parens + 1, isTyped := false } }
  else if char = ')' ∧ 0 < parens then
    some { reader with clause := { reader.clause with parens := parens - 1, isTyped := false } }
  else if char = '\x7b' ∧ parens = 0 then
    reader.openBlock
  else if char = '\x7d' ∧ parens = 0 then
    reader.closeBlock
  else if char = ';' then
    some (if parens = 0 then { reader with clause := .start } else reader.settle)
  else if char ∈ joints then
    some reader.settle
  else
    none

theorem ne_of_mem_joints {char : Char} (known : char ∈ joints)
    : char ≠ '(' ∧ char ≠ ')' ∧ char ≠ '\x7b' ∧ char ≠ '\x7d' ∧ char ≠ ';' := by
  have others (other : Char) (absent : other ∉ joints) : char ≠ other := by
    rintro rfl
    exact absent known
  exact ⟨others _ (by decide), others _ (by decide), others _ (by decide), others _ (by decide),
    others _ (by decide)⟩

theorem mark_joint (reader : Reader) {char : Char} (known : char ∈ joints)
    : reader.mark char = some reader.settle := by
  obtain ⟨paren, unparen, brace, unbrace, semicolon⟩ := ne_of_mem_joints known
  simp [mark, paren, unparen, brace, unbrace, semicolon, known]

/-- Takes a token. -/
def read (reader : Reader) : Token → Option Reader
  | .word text => reader.word text
  | .mark char => reader.mark char
  | .comment => none

/-- Takes tokens, one after the other. -/
def readAll (reader : Reader) (list : List Token) : Option Reader := list.foldlM read reader

@[simp]
theorem readAll_nil (reader : Reader) : reader.readAll [] = some reader := rfl

@[simp]
theorem readAll_cons (reader : Reader) (token : Token) (rest : List Token)
    : reader.readAll (token :: rest) = (reader.read token).bind (·.readAll rest) :=
  rfl

theorem readAll_append (reader : Reader) (front rest : List Token)
    : reader.readAll (front ++ rest) = (reader.readAll front).bind (·.readAll rest) :=
  List.foldlM_append

-----------------------------------------------------------------------------------------
-- Braces
-----------------------------------------------------------------------------------------

/-- The braces of a text that open a block. -/
def opened (list : List Token) : Nat := list.count (.mark '\x7b')

/-- The braces of a text that close a block. -/
def closed (list : List Token) : Nat := list.count (.mark '\x7d')

variable {reader next result : Reader} {token : Token} {list front rest : List Token}

theorem outer_of_word {text : String} (taken : reader.word text = some next)
    : next.outer = reader.outer := by
  unfold word at taken
  split at taken
  · exact Option.some.inj taken ▸ rfl
  split at taken
  · exact Option.some.inj taken ▸ rfl
  split at taken
  · exact Option.some.inj taken ▸ rfl
  split at taken
  · rw [← Option.some.inj taken, declare]
    split <;> rfl
  split at taken
  · exact Option.some.inj taken ▸ rfl
  · cases taken

theorem length_openBlock (taken : reader.openBlock = some next)
    : next.outer.length = reader.outer.length + 1 := by
  unfold openBlock at taken
  split at taken
  · cases taken
  · exact Option.some.inj taken ▸ rfl
  · exact Option.some.inj taken ▸ rfl

theorem length_closeBlock (taken : reader.closeBlock = some next)
    : next.outer.length + 1 = reader.outer.length := by
  unfold closeBlock at taken
  split at taken
  · cases taken
  · next same => rw [same, ← Option.some.inj taken, List.length_cons]

/-- A token opens and closes as many blocks as it has braces. -/
theorem depth_of_read (taken : reader.read token = some next)
    : next.outer.length + closed [token] = reader.outer.length + opened [token] := by
  cases token with
  | comment => cases taken
  | word text =>
      have kept := outer_of_word taken
      rw [kept]
      rfl
  | mark char =>
      change reader.mark char = some next at taken
      unfold mark at taken
      dsimp only at taken
      split at taken
      · next same => subst same; exact Option.some.inj taken ▸ rfl
      split at taken
      · next same => rw [same.1]; exact Option.some.inj taken ▸ rfl
      split at taken
      · next same => rw [same.1]; exact length_openBlock taken
      split at taken
      · next same => rw [same.1]; exact length_closeBlock taken
      split at taken
      · next same =>
          subst same
          rw [← Option.some.inj taken]
          split <;> rfl
      split at taken
      · next joint =>
          obtain ⟨_, _, brace, unbrace, _⟩ := ne_of_mem_joints joint
          have opens : opened [.mark char] = 0 := by simp [opened, brace]
          have closes : closed [.mark char] = 0 := by simp [closed, unbrace]
          rw [closes, opens]
          exact Option.some.inj taken ▸ rfl
      · cases taken

/-- A text opens and closes as many blocks as it has braces, by induction on its tokens. -/
theorem depth_of_readAll (taken : reader.readAll list = some result)
    : result.outer.length + closed list = reader.outer.length + opened list := by
  induction list generalizing reader with
  | nil => rw [← Option.some.inj taken]; rfl
  | cons token rest ih =>
      obtain ⟨next, first, others⟩ := Option.bind_eq_some_iff.mp taken
      have one := depth_of_read first
      have more := ih others
      have closes : closed (token :: rest) = closed [token] + closed rest := by
        rw [← List.singleton_append, closed, closed, closed, List.count_append]
      have opens : opened (token :: rest) = opened [token] + opened rest := by
        rw [← List.singleton_append, opened, opened, opened, List.count_append]
      omega

/-- Up to any place of a text that is read, no more blocks are closed than are opened. -/
theorem closed_le_opened (taken : start.readAll (front ++ rest) = some result)
    : closed front ≤ opened front := by
  rw [readAll_append] at taken
  obtain ⟨between, first, _⟩ := Option.bind_eq_some_iff.mp taken
  have depth := depth_of_readAll first
  have file : start.outer.length = 0 := rfl
  omega

-----------------------------------------------------------------------------------------
-- Names
-----------------------------------------------------------------------------------------

/-- A name in a text that is read is declared where it stands, or can be used there. -/
theorem exists_between {name : String} (free : ¬IsReserved name)
    (taken : reader.readAll (front ++ .word name :: rest) = some result)
    : ∃ between,
        reader.readAll front = some between
        ∧ (between.clause.isTyped = true ∨ name ∈ between.visible) := by
  rw [readAll_append] at taken
  obtain ⟨between, first, others⟩ := Option.bind_eq_some_iff.mp taken
  obtain ⟨next, here, _⟩ := Option.bind_eq_some_iff.mp others
  refine ⟨between, first, ?_⟩
  change between.word name = some next at here
  rw [between.word_of_free free] at here
  split at here
  · next typed => exact Or.inl typed
  split at here
  · next seen => exact Or.inr seen
  · cases here

end Reader

-----------------------------------------------------------------------------------------
-- Code that declares nothing
-----------------------------------------------------------------------------------------

/-- Tokens that every reader for which some names are declared is the same behind. -/
def Quiet (names : List String) (list : List Token) : Prop :=
  ∀ reader : Reader,
    reader.clause.isTyped = false → names ⊆ reader.visible → reader.readAll list = some reader

namespace Quiet

variable {names : List String} {list rest : List Token}

theorem nil (names : List String) : Quiet names [] := fun _ _ _ => rfl

theorem append (first : Quiet names list) (second : Quiet names rest)
    : Quiet names (list ++ rest) := by
  intro reader settled seen
  rw [Reader.readAll_append, first reader settled seen, Option.bind_some,
    second reader settled seen]

theorem number {word : String} (digit : isNumber word = true) : Quiet names [.word word] := by
  intro reader _ _
  change (reader.word word).bind some = _
  rw [Reader.word, if_pos digit, Option.bind_some]

theorem name {word : String} (free : ¬IsReserved word) (known : word ∈ names)
    : Quiet names [.word word] := by
  intro reader settled seen
  change (reader.word word).bind some = _
  rw [reader.word_of_free free, if_neg (by simp [settled]), if_pos (seen known), Option.bind_some]

theorem function {word : String} (known : word ∈ library) : Quiet names [.word word] := by
  intro reader settled _
  have others
      : ∀ function ∈ library,
          ¬isNumber function = true ∧ function ∉ typeWords ∧ function ∉ keywords := by
    decide
  obtain ⟨number, type, keyword⟩ := others word known
  change (reader.word word).bind some = _
  rw [Reader.word, if_neg number, if_neg type, if_neg keyword, if_neg (by simp [settled]),
    if_pos (Or.inl known), Option.bind_some]

theorem joint {char : Char} (known : char ∈ Reader.joints) : Quiet names [.mark char] := by
  intro reader settled _
  change (reader.mark char).bind some = _
  rw [reader.mark_joint known, Option.bind_some, Reader.settle_eq settled]

/-- Parentheses around code do not change what it does. -/
theorem parentheses (quiet : Quiet names list)
    : Quiet names (.mark '(' :: list ++ [.mark ')']) := by
  intro reader settled seen
  let inside : Reader :=
    { reader with
      clause := { reader.clause with parens := reader.clause.parens + 1, isTyped := false } }
  have within : inside.readAll list = some inside := quiet inside rfl seen
  have opens : reader.readAll (.mark '(' :: list) = some inside := within
  rw [Reader.readAll_append, opens, Option.bind_some]
  obtain ⟨block, outer, loops, functions, ⟨declared, parens, isTyped, isLoop, isStatic⟩⟩ := reader
  cases settled
  rfl

/-- Types within parentheses convert what stands behind them: no name is declared there. -/
theorem cast (names : List String) {types : List String}
    (known : ∀ type ∈ types, type ∈ typeWords)
    : Quiet names (.mark '(' :: types.map .word ++ [.mark ')']) := by
  rintro ⟨block, outer, loops, functions, ⟨declared, parens, isTyped, isLoop, isStatic⟩⟩ settled _
  cases settled
  have inside (isTyped : Bool)
      : ∃ now,
          Reader.readAll
              ⟨block, outer, loops, functions, ⟨declared, parens + 1, isTyped, isLoop, isStatic⟩⟩
              (types.map .word)
            = some
                ⟨block, outer, loops, functions, ⟨declared, parens + 1, now, isLoop, isStatic⟩⟩ := by
    induction types generalizing isTyped with
    | nil => exact ⟨isTyped, rfl⟩
    | cons type rest ih =>
        obtain ⟨first, others⟩ := List.forall_mem_cons.mp known
        have words : ∀ type ∈ typeWords, ¬isNumber type = true := by decide
        obtain ⟨now, read⟩ := ih others true
        refine ⟨now, ?_⟩
        rw [List.map_cons, Reader.readAll_cons, Reader.read, Reader.word,
          if_neg (words type first), if_pos first]
        exact read
  obtain ⟨now, read⟩ := inside false
  have opens
      : Reader.readAll
            ⟨block, outer, loops, functions, ⟨declared, parens, false, isLoop, isStatic⟩⟩
            (.mark '(' :: types.map .word)
          = some ⟨block, outer, loops, functions, ⟨declared, parens + 1, now, isLoop, isStatic⟩⟩ :=
    read
  rw [Reader.readAll_append, opens, Option.bind_some]
  rfl

end Quiet

/-- A text is read as code that declares nothing and uses no other names. -/
def Uses (names : List String) (text : String) : Prop :=
  ∃ list, Spells text list ∧ Quiet names list

/-- Such a text that can stand right behind words and in front of them. -/
def Joins (names : List String) (text : String) : Prop :=
  ∃ list, Seals text list ∧ Parts text ∧ Quiet names list

variable {names : List String} {text other joint : String}

/-- A mark, with blanks or without, can stand between words. -/
theorem joins_of_mem {char : Char} (known : char ∈ Reader.joints)
    (seals : Seals text [.mark char]) (parts : Parts text)
    : Joins names text :=
  ⟨_, seals, parts, .joint known⟩

theorem Joins.uses (joins : Joins names text) : Uses names text := by
  obtain ⟨list, seals, _, quiet⟩ := joins
  exact ⟨list, seals.spells, quiet⟩

namespace Uses

theorem name (word : IsWord text) (free : ¬IsReserved text) (known : text ∈ names)
    : Uses names text :=
  ⟨_, spells_word word, .name free known⟩

theorem function (word : IsWord text) (known : text ∈ library) : Uses names text :=
  ⟨_, spells_word word, .function known⟩

theorem number (word : IsWord text) (digit : isNumber text = true) : Uses names text :=
  ⟨_, spells_word word, .number digit⟩

theorem behind (joins : Joins names joint) (uses : Uses names text)
    : Uses names (joint ++ text) := by
  obtain ⟨marks, seals, _, still⟩ := joins
  obtain ⟨list, spells, quiet⟩ := uses
  exact ⟨_, seals.append_spells spells, still.append quiet⟩

theorem before (uses : Uses names text) (joins : Joins names joint)
    : Uses names (text ++ joint) := by
  obtain ⟨marks, seals, parts, still⟩ := joins
  obtain ⟨list, spells, quiet⟩ := uses
  exact ⟨_, (spells.append seals parts).spells, quiet.append still⟩

theorem join (left : Uses names text) (joins : Joins names joint) (right : Uses names other)
    : Uses names (text ++ joint ++ other) := by
  obtain ⟨marks, seals, parts, still⟩ := joins
  obtain ⟨first, spells, quiet⟩ := left
  obtain ⟨second, spells', quiet'⟩ := right
  exact ⟨_, (spells.append seals parts).append_spells spells',
    (quiet.append still).append quiet'⟩

theorem parentheses (uses : Uses names text) : Joins names ("(" ++ text ++ ")") := by
  obtain ⟨list, spells, quiet⟩ := uses
  have opens : Seals "(" [.mark '('] := fun _ => rfl
  have closes : Seals ")" [.mark ')'] := fun _ => rfl
  have parts : Parts "(" := ⟨'(', rfl, rfl⟩
  exact ⟨_, (opens.append_spells spells).append closes ⟨')', rfl, rfl⟩,
    (parts.append text).append ")", quiet.parentheses⟩

theorem brackets (uses : Uses names text) : Joins names ("[" ++ text ++ "]") := by
  obtain ⟨list, spells, quiet⟩ := uses
  have opens : Seals "[" [.mark '['] := fun _ => rfl
  have closes : Seals "]" [.mark ']'] := fun _ => rfl
  have parts : Parts "[" := ⟨'[', rfl, rfl⟩
  exact ⟨_, (opens.append_spells spells).append closes ⟨']', rfl, rfl⟩,
    (parts.append text).append "]",
    ((Quiet.joint (by decide)).append quiet).append (.joint (by decide))⟩

end Uses

end LazyTensor.Code
