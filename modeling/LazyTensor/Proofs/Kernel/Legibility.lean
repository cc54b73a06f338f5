import LazyTensor.Proofs.Kernel.SourceUnit
import LazyTensor.Proofs.Kernel.Statements

/-! Source units read back. What the text of a unit says is the kernel of its task: the name, the
element type and the number of sources, and the program as it is printed. So the text alone tells what
the function of the unit does to memory.
-/

namespace LazyTensor

open Code Kernel

namespace Code

/-- Lines without quotes are read one by one, by induction on them. -/
theorem lexesLines_of_unquoted {lines : List String}
    (plain : ∀ line ∈ lines, '\"' ∉ line.toList)
    : LexesLines lines (lines.flatMap fun line => lexemes line.toList) := by
  induction lines with
  | nil => exact lexesLines_nil
  | cons line rest ih =>
      rw [List.forall_mem_cons] at plain
      exact (lexes_of_unquoted plain.1 rfl).line.append (ih plain.2)

/-- Pieces with commas between them, by induction on those behind the first. -/
theorem lexes_listed {text : String} {list : List Lexeme} (first : Lexes text.toList list)
    {others : List (String × List Lexeme)}
    (each : ∀ other ∈ others, Lexes other.1.toList other.2)
    : Lexes (", ".intercalate (text :: others.map Prod.fst)).toList
        (list ++ others.flatMap fun other => mark ',' :: other.2) := by
  induction others generalizing text list with
  | nil => simpa using first
  | cons next rest ih =>
      rw [List.forall_mem_cons] at each
      have comma : ',' ∈ separators := by decide
      have behind := first.append comma (lexes_nil.spaced (ih each.1 each.2))
      rw [List.map_cons, String.intercalate_cons_cons]
      simpa [show lexemes [','] = [mark ','] from rfl] using behind

end Code

namespace Kernel

-----------------------------------------------------------------------------------------
-- The generator
-----------------------------------------------------------------------------------------

/-- The elements of the generator. -/
def generatorLexemes : List Lexeme := generatorText.flatMap fun line => lexemes line.toList

theorem lexesLines_generator : LexesLines generatorText generatorLexemes := by
  refine lexesLines_of_unquoted ?_
  simp only [generatorText, List.forall_mem_cons]
  repeat rw [String.toList_ofList]
  decide

/-- The generator is read whatever follows it. -/
theorem readDefinition_generator (rest : List Lexeme)
    : readDefinition (generatorLexemes ++ rest) = some (generator, rest) := by
  simp only [generatorLexemes, generatorText, List.flatMap_cons, List.flatMap_nil]
  repeat rw [String.toList_ofList]
  rfl

-----------------------------------------------------------------------------------------
-- Heads of functions
-----------------------------------------------------------------------------------------

/-- The elements of the output among the parameters. -/
def outputLexemes (dtype : DType) : List Lexeme :=
  [word dtype.cType, mark '*', word "restrict", word "out"]

/-- The elements of the sources among the parameters, from some number on. -/
def sourcesLexemes (dtype : DType) (number count : Nat) : List Lexeme :=
  (List.range' number count).flatMap (sourceLexemes dtype)

theorem lexes_parameters (dtype : DType) (arity : Nat)
    : Lexes (", ".intercalate (parameters dtype arity)).toList
        (outputLexemes dtype ++ sourcesLexemes dtype 0 arity) := by
  have output : Lexes (dtype.cType ++ "* restrict out").toList (outputLexemes dtype) := by
    cases dtype
    all_goals exact lexes_of_unquoted (by decide) (by decide)
  let pieces := (List.range arity).map fun number =>
    ("const " ++ dtype.cType ++ "* restrict in" ++ number.repr,
      [word "const", word dtype.cType, mark '*', word "restrict", word (sourceName number)])
  have each : ∀ piece ∈ pieces, Lexes piece.1.toList piece.2 := by
    intro piece member
    obtain ⟨number, _, rfl⟩ := List.mem_map.mp member
    have front
        : Lexes ("const " ++ dtype.cType ++ "* restrict").toList
            [word "const", word dtype.cType, mark '*', word "restrict"] := by
      cases dtype
      all_goals exact lexes_of_unquoted (by decide) (by decide)
    have ends : "* restrict in" = "* restrict" ++ " in" := rfl
    have whole := front.spaced (isName_sourceName number).lexes
    simpa [ends, sourceName, word] using whole
  have texts
      : parameters dtype arity = (dtype.cType ++ "* restrict out") :: pieces.map Prod.fst := by
    simp only [parameters, pieces, List.map_map, Function.comp_def]
  have lists
      : sourcesLexemes dtype 0 arity = pieces.flatMap fun piece => mark ',' :: piece.2 := by
    rw [sourcesLexemes, ← List.range_eq_range', List.flatMap_map]
    rfl
  rw [texts, lists]
  exact lexes_listed output each

/-- The sources are counted up to the opening brace, by induction on how many are left. -/
theorem readSources_sourcesLexemes (dtype : DType) (number count : Nat) {fuel : Nat}
    (enough : count < fuel) (rest : List Lexeme)
    : readSources dtype fuel number
        (sourcesLexemes dtype number count ++ mark ')' :: mark '\x7b' :: rest)
      = some (number + count, rest) := by
  induction count generalizing number fuel with
  | zero =>
      obtain ⟨fuel, rfl⟩ := Nat.exists_eq_add_of_le' (Nat.succ_le_of_lt enough)
      simp [sourcesLexemes, readSources, List.isPrefixOf?]
  | succ count ih =>
      obtain ⟨fuel, rfl⟩ := Nat.exists_eq_add_of_le' (Nat.one_le_of_lt enough)
      have others := ih (number + 1) (Nat.lt_of_succ_lt_succ enough)
      have inside (input : List Lexeme)
          : [mark ')', mark '\x7b'].isPrefixOf? (sourceLexemes dtype number ++ input) = none := by
        simp [sourceLexemes, List.isPrefixOf?, mark]
      have taken (input : List Lexeme)
          : (sourceLexemes dtype number).isPrefixOf? (sourceLexemes dtype number ++ input)
            = some input :=
        List.isPrefixOf?_eq_some_iff_append_eq.mpr rfl
      rw [sourcesLexemes, List.range'_succ, List.flatMap_cons, List.append_assoc, readSources, inside,
        taken, ← sourcesLexemes]
      simp only [Option.bind_eq_bind, Option.bind_some]
      rw [others, Nat.add_right_comm]
      rfl

/-- The elements of the line that opens a kernel. -/
def signatureLexemes (name : String) (dtype : DType) (arity : Nat) : List Lexeme :=
  word "void" :: word name :: mark '('
    :: (outputLexemes dtype ++ (sourcesLexemes dtype 0 arity ++ [mark ')', mark '\x7b']))

theorem lexes_signature {name : String} (named : IsName name) (dtype : DType) (arity : Nat)
    : Lexes (signature name dtype arity).toList (signatureLexemes name dtype arity) := by
  have opening : '(' ∈ separators := by decide
  have closing : ')' ∈ separators := by decide
  have void : Lexes "void".toList [word "void"] := lexes_of_unquoted (by decide) rfl
  have brace : Lexes ['\x7b'] [mark '\x7b'] := lexes_of_unquoted (by decide) rfl
  have head := (void.spaced named.lexes).append opening (lexes_parameters dtype arity)
  have whole := head.append closing (lexes_nil.spaced brace)
  simpa [signature, signatureLexemes, word, show lexemes ['('] = [mark '('] from rfl,
    show lexemes [')'] = [mark ')'] from rfl] using whole

/-- The output is read with its element type. -/
theorem readOutput_outputLexemes (dtype : DType) (rest : List Lexeme)
    : readOutput (mark '(' :: (outputLexemes dtype ++ rest)) = some (dtype, rest) := by
  cases dtype with
  | float32 => rfl
  | float64 => rfl

/-- The elements of what stands in front of a kernel. -/
def helperLexemes (kind : OpKind) : List Lexeme := if kind = .fill .random then generatorLexemes else []

/-- The lines in front of a kernel behind the directive. -/
theorem exists_preamble (kind : OpKind)
    : ∃ lines,
        preamble kind = "#include <math.h>" :: lines ∧ LexesLines lines (helperLexemes kind) := by
  refine ⟨_, rfl, ?_⟩
  have empty : Lexes "".toList [] := lexes_nil
  have blank := empty.line
  rw [helperLexemes]
  split
  · have whole := (blank.append lexesLines_generator).append blank
    rwa [List.append_nil] at whole
  · exact blank

/-- The function in front of a kernel is the generator, if there is one. -/
theorem readHelpers_helperLexemes (kind : OpKind) (name : String) (dtype : DType) (arity : Nat)
    (rest : List Lexeme)
    : readHelpers (helperLexemes kind ++ (signatureLexemes name dtype arity ++ rest))
      = some ((helpers kind).map (·.name), signatureLexemes name dtype arity ++ rest) := by
  by_cases draws : kind = .fill .random
  · rw [helperLexemes, if_pos draws, readHelpers, readDefinition_generator, helpers, if_pos draws]
    exact if_pos rfl
  · rw [helperLexemes, if_neg draws, helpers, if_neg draws]
    rfl

-----------------------------------------------------------------------------------------
-- Programs
-----------------------------------------------------------------------------------------

theorem counterName_ne_acc (counter : Nat) : counterName counter ≠ "acc" := by
  intro same
  have first := congrArg (·.toList.head?) same
  simp [counterName] at first

theorem sourceName_ne_acc (source : Nat) : sourceName source ≠ "acc" := by
  intro same
  have first := congrArg (·.toList.head?) same
  simp [sourceName] at first

/-- A nest is legible if its body is whatever is declared, by induction on the shape. -/
theorem Stmt.legible_nest (body : Stmt) (legible : ∀ names, body.Legible names) (first : Nat)
    (shape : Shape) (names : List String)
    : (nest first shape body).Legible names := by
  induction shape generalizing first names with
  | nil => exact legible names
  | cons extent inner ih => exact ih (first + 1) _

/-- A map of two arrays is legible. -/
theorem Stmt.legible_zipKernel {op : BinaryMap} (elementwise : op ≠ .matmul) (left right : Layout)
    (names : List String)
    : (zipKernel op left right).Legible names := by
  let body : Stmt :=
    .store (strided (counters 0 left.rank) (Shape.strides left.shape))
      (.binary op (.read 0 (strided (counters 0 left.rank) left.strides))
        (.read 1 (strided (counters 0 left.rank) right.strides)))
  have legible (names : List String) : body.Legible names :=
    .binary elementwise _ _ _ _
  exact legible_nest body legible 0 left.shape names

/-- The elements of a head and of a block are read as the function that they define. -/
theorem read_of_lexemes {source name : String} {rest : List Char} {kind : OpKind} {dtype : DType}
    {arity : Nat} {list : List Lexeme} {steps : List Stmt} {behind : List String}
    (text : source.toList = directive.toList ++ rest)
    (lexed
      : lexemes rest
        = helperLexemes kind ++ (signatureLexemes name dtype arity ++ (list ++ [mark '\x7d'])))
    (reads
      : ReadsBlock dtype
          ("out" :: ((List.range arity).map sourceName ++ (helpers kind).map (·.name))) list steps
          behind)
    : Routine.read source = some ⟨name, dtype, arity, .ofList steps⟩ := by
  have drop : directive.toList.isPrefixOf? source.toList = some rest :=
    List.isPrefixOf?_eq_some_iff_append_eq.mpr text.symm
  have void (rest : List Lexeme) : [word "void"].isPrefixOf? (word "void" :: rest) = some rest := by
    simp [List.isPrefixOf?]
  have sources : (sourcesLexemes dtype 0 arity).length = arity * 6 := by
    have each : (fun number => (sourceLexemes dtype number).length) = fun _ => 6 := rfl
    simp [sourcesLexemes, List.length_flatMap, each]
  have long : list.length + 1 < (lexemes rest).length ∧ arity < (lexemes rest).length := by
    rw [lexed]
    simp only [signatureLexemes, List.length_append, List.length_cons, List.length_nil, sources]
    omega
  have inside := readSources_sourcesLexemes dtype 0 arity long.2 (list ++ [mark '\x7d'])
  have block := reads.read _ long.1.le [mark '\x7d']
  obtain ⟨left, same⟩
      := Nat.exists_eq_add_of_lt
          (show 0 < (lexemes rest).length - steps.length by have short := reads.short; omega)
  have closes (names : List String)
      : readBlock dtype (0 + left + 1) names [mark '\x7d'] = some ([], []) := by
    simp [readBlock, List.isPrefixOf?]
  rw [same, closes, Option.map_some] at block
  dsimp only at block
  rw [List.append_nil] at block
  rw [Routine.read, drop]
  simp only [Option.bind_eq_bind, Option.bind_some]
  generalize (lexemes rest).length = fuel at inside block ⊢
  rw [lexed, readHelpers_helperLexemes, signatureLexemes]
  simp only [List.cons_append, List.append_assoc, Option.bind_some, void, List.nil_append]
  change (readOutput _).bind _ = _
  rw [readOutput_outputLexemes, Option.bind_some, inside, Option.bind_some, Nat.zero_add, block]
  simp

end Kernel

namespace Task

/-- The function that a task is carried out by, as it is printed. -/
def routine (task : Task) (program : Stmt) : Routine where
  name := task.kernelName
  dtype := task.target.dtype
  arity := task.sources.length
  body := program.printed task.target.dtype

/-- The function of a task does what its program does, if its constants are the same as printed. -/
theorem apply_routine {task : Task} {program : Stmt} {arith : Arithmetic}
    (known
      : ∀ bits ∈ program.constants,
          arith.constant task.target.dtype (task.target.dtype.narrowed bits)
            = arith.constant task.target.dtype bits)
    (out : Array Pattern) (sources : List (Array Pattern))
    : (task.routine program).apply arith out sources
      = (program.run arith task.target.dtype sources (fun _ => 0) ⟨out, 0⟩).out :=
  (Stmt.apply_printed known out).trans (Stmt.apply_eq _ _ _ _ _)

/-- The names that are declared where the body of the function of a task starts. -/
def declared (task : Task) : List String :=
  "out" :: ((List.range task.sources.length).map sourceName ++ (helpers task.kind).map (·.name))

/-- The kernel of a task is legible, by cases on the task. -/
theorem Runs.legible {task : Task} {program : Stmt} (runs : task.Runs program)
    : program.Legible task.declared := by
  have fills (count : Nat) {value : Expr} (legible : value.Legible) (names : List String)
      : (fillFlat count value).Legible names :=
    legible
  have moves (first : Nat) (shape : Shape) (address : Address) {value : Expr}
      (legible : value.Legible) (names : List String)
      : (nest first shape (.store address value)).Legible names :=
    Stmt.legible_nest (.store address value) (fun _ => legible) first shape names
  have folds (op : Reduction) (first : Nat) (shape : Shape) (address : Address) {value : Expr}
      (legible : value.Legible) (names : List String)
      : (nest first shape (.fold op address value)).Legible names :=
    Stmt.legible_nest (.fold op address value) (fun _ => legible) first shape names
  cases runs with
  | empty => exact fills _ (.constant _) _
  | constant target bits => exact fills _ (.constant bits) _
  | random target seed => exact fills _ (.draw seed 0) _
  | unary op source target kept => exact fills _ (.unary op _ _) _
  | binary op left right target elementwise same dense =>
      exact Stmt.legible_zipKernel elementwise _ _ _
  | matmul left right target leftShape rightShape dense =>
      refine ⟨⟨.constant _, ?_⟩, trivial, trivial⟩
      simp only [declared, List.mem_cons, List.mem_append, List.mem_map, not_or, not_exists, not_and]
      refine ⟨(counterName_ne_acc 1).symm, (counterName_ne_acc 0).symm, by decide,
        fun source _ => sourceName_ne_acc source, by simp [helpers, Task.kind]⟩
  | reduce op source target inside dense =>
      exact ⟨fills _ (.constant _) _, folds op _ _ _ (.read _ _) _⟩
  | permute source target accepted dense => exact moves _ _ _ (.read _ _) _
  | pad source target length padded dense =>
      exact ⟨fills _ (.constant _) _, moves _ _ _ (.read _ _) _⟩

theorem output_declared (task : Task) : "out" ∈ task.declared := List.mem_cons_self

theorem source_declared {task : Task} {source : Nat} (below : source < task.sources.length)
    : sourceName source ∈ task.declared := by
  have listed := List.mem_map_of_mem (f := sourceName) (List.mem_range.mpr below)
  exact List.mem_cons_of_mem _ (List.mem_append_left _ listed)

/-- The text of a unit is read as a function if its program is scoped and legible. -/
theorem read_unit {task : Task} {program : Stmt} (allowed : program.Scoped task.declared)
    (legible : program.Legible task.declared)
    : Routine.read (task.unit program).source = some (task.routine program) := by
  obtain ⟨list, reads, lexed⟩ := Stmt.writes task.target.dtype allowed legible
  obtain ⟨lines, preamble, front⟩ := exists_preamble task.kind
  have named : IsName task.kernelName :=
    .of_free task.isIdentifier_kernelName.isWord task.not_isReserved_kernelName
  have head := (lexes_signature named task.target.dtype task.sources.length).line
  have body := lexed .start [] lexesLines_nil
  have brace : Lexes "\x7d".toList [mark '\x7d'] := lexes_of_unquoted (by decide) rfl
  have whole := front.append (head.append (body.append brace.line))
  rw [List.nil_append] at whole
  -- The text is the directive and then the lines that are read.
  have text
      : (task.unit program).source.toList
        = directive.toList
          ++ ended
            (lines
              ++ ([signature task.kernelName task.target.dtype task.sources.length]
                ++ (program.lines task.target.dtype ++ ["\x7d"]))) := by
    have split
        : (task.unit program).source
          = "\n".intercalate
              ("#include <math.h>"
                :: (lines
                  ++ ([signature task.kernelName task.target.dtype task.sources.length]
                    ++ (program.lines task.target.dtype ++ ["\x7d"])))
                ++ [""]) := by
      simp [unit, preamble]
    rw [split, toList_intercalate_ended]
    rfl
  have input := whole []
  rw [List.append_nil, show lexemes [] = [] from rfl, List.append_nil] at input
  exact read_of_lexemes text input reads

/-- The text of the unit of a task is read as the function of the task. -/
theorem Runs.read_unit {task : Task} {program : Stmt} (runs : task.Runs program)
    : Routine.read (task.unit program).source = some (task.routine program) := by
  refine Task.read_unit (runs.scoped task.output_declared ?_ ?_) runs.legible
  · exact fun source below => source_declared below
  · intro draws
    simp [declared, helpers, draws]

end Task

end LazyTensor
