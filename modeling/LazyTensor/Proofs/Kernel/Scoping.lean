import LazyTensor.Proofs.Kernel.Lowering
import LazyTensor.Proofs.Kernel.Phrases
import LazyTensor.Proofs.Kernel.Points

/-! Scopes of kernels. A statement is scoped if every counter, the local sum and every array is
declared where it is used, and the programs of all tasks are. The lines of a scoped statement are
well scoped: a reader gets through them, and behind them knows what the statement declares.
-/

namespace LazyTensor

open Code

namespace Kernel

-----------------------------------------------------------------------------------------
-- Scopes of statements
-----------------------------------------------------------------------------------------

/-- The counters of the loops of a statement, newest first. -/
def Stmt.loopCounters : Stmt → List Nat
  | seq first second => second.loopCounters ++ first.loopCounters
  | loop counter _ body => body.loopCounters ++ [counter]
  | _ => []

/-- With some names declared, a statement uses none that is not declared where it is used. -/
def Stmt.Scoped : List String → Stmt → Prop
  | _, skip => True
  | names, seq first second => first.Scoped names ∧ second.Scoped (first.declared ++ names)
  | names, loop counter _ body => body.Scoped (counterName counter :: names)
  | names, store address value => "out" :: (address.names ++ value.names) ⊆ names
  | names, fold _ address value => "out" :: (address.names ++ value.names) ⊆ names
  | names, startSum value => value.names ⊆ names
  | names, addProduct left right => "acc" :: (left.names ++ right.names) ⊆ names
  | names, storeSum address => "out" :: "acc" :: address.names ⊆ names

/-- More names do no harm, by induction on the statement. -/
theorem Stmt.Scoped.mono {body : Stmt} {names more : List String} (allowed : body.Scoped names)
    (subset : names ⊆ more)
    : body.Scoped more := by
  induction body generalizing names more with
  | skip => trivial
  | seq first second ihFirst ihSecond =>
      have behind : first.declared ++ names ⊆ first.declared ++ more :=
        List.append_subset.mpr
          ⟨List.subset_append_left _ _, List.Subset.trans subset (List.subset_append_right _ _)⟩
      exact ⟨ihFirst allowed.1 subset, ihSecond allowed.2 behind⟩
  | loop counter bound body ih => exact ih allowed (List.cons_subset_cons _ subset)
  | store | fold | startSum | addProduct | storeSum => exact List.Subset.trans allowed subset

/-- A nest is scoped if its body is with the counters declared, by induction on the shape. -/
theorem Stmt.scoped_nest {body : Stmt} {names : List String} (first : Nat) (shape : Shape)
    (allowed : body.Scoped ((counters first shape.length).map counterName ++ names))
    : (nest first shape body).Scoped names := by
  induction shape generalizing first names with
  | nil => exact allowed
  | cons extent inner ih =>
      refine ih (first + 1) (allowed.mono ?_)
      intro name member
      simp only [counters, List.length_cons, List.range'_succ, List.map_cons, List.cons_append,
        List.mem_cons, List.mem_append] at member ⊢
      tauto

theorem loopCounters_nest (first : Nat) (shape : Shape) (body : Stmt)
    : (nest first shape body).loopCounters
      = body.loopCounters ++ (counters first shape.length).reverse := by
  induction shape generalizing first with
  | nil => simp [nest, counters]
  | cons extent inner ih =>
      rw [nest, Stmt.loopCounters, ih, counters, counters, List.length_cons, List.range'_succ,
        List.reverse_cons, List.append_assoc]

-----------------------------------------------------------------------------------------
-- Lines of statements
-----------------------------------------------------------------------------------------

theorem tokens_line (writer : Writer) (statement : String)
    : (writer.line statement).lines.flatMap tokens
      = writer.lines.flatMap tokens ++ tokens statement := by
  simp [Writer.lines, Writer.line, tokens_indent]

section Reading

variable {names block around loops : List String} {outer : List (List String)}
  {functions : List Function} {text : String}

/-- A statement that declares nothing leaves a reader where it was. -/
theorem readAll_statement (uses : Uses names text)
    (known : names ⊆ block ++ (around :: outer).flatten)
    : Reader.readAll ⟨block, around :: outer, loops, functions, .start⟩ (tokens (text ++ ";"))
      = some ⟨block, around :: outer, loops, functions, .start⟩ := by
  obtain ⟨list, spells, quiet⟩ := uses
  have ends : Seals ";" [.mark ';'] := fun _ => rfl
  have whole := (spells.append ends ⟨_, rfl, rfl⟩).spells.tokens_eq
  have still := quiet ⟨block, around :: outer, loops, functions, .start⟩ rfl known
  rw [whole, Reader.readAll_append, still]
  rfl

/-- The start of the local sum declares it. -/
theorem readAll_startSum (dtype : DType) (uses : Uses names text)
    (known : names ⊆ block ++ (around :: outer).flatten)
    : Reader.readAll ⟨block, around :: outer, loops, functions, .start⟩
        (tokens (dtype.cType ++ " acc = " ++ text ++ ";"))
      = some ⟨"acc" :: block, around :: outer, loops, functions, .start⟩ := by
  obtain ⟨list, spells, quiet⟩ := uses
  have starts
      : Seals (dtype.cType ++ " acc = ") [.word dtype.cType, .word "acc", .mark '='] := by
    cases dtype <;> exact fun _ => rfl
  have ends : Seals ";" [.mark ';'] := fun _ => rfl
  have declares
      : Reader.readAll ⟨block, around :: outer, loops, functions, .start⟩
          [.word dtype.cType, .word "acc", .mark '=']
        = some ⟨"acc" :: block, around :: outer, loops, functions, .start⟩ := by
    cases dtype <;> rfl
  have whole := ((starts.append_spells spells).append ends ⟨_, rfl, rfl⟩).spells.tokens_eq
  have still :=
    quiet ⟨"acc" :: block, around :: outer, loops, functions, .start⟩ rfl
      (List.Subset.trans known (List.subset_cons_self _ _))
  rw [whole, Reader.readAll_append, Reader.readAll_append, declares, Option.bind_some, still]
  rfl

theorem tokens_loopHead (counter bound : Nat)
    : tokens (Writer.loopHead counter bound)
      = [.word "for", .mark '(', .word "long", .word "long", .word (counterName counter),
          .mark '=', .word "0", .mark ';', .word (counterName counter), .mark '<',
          .word bound.repr, .mark ';', .word (counterName counter), .mark '+', .mark '+',
          .mark ')', .mark '\x7b'] := by
  have starts : Seals "for (long long " [.word "for", .mark '(', .word "long", .word "long"] :=
    fun _ => rfl
  have zero : Seals " = 0; " [.mark '=', .word "0", .mark ';'] := fun _ => rfl
  have below : Seals " < " [.mark '<'] := fun _ => rfl
  have next : Seals "; " [.mark ';'] := fun _ => rfl
  have ends : Seals "++) \x7b" [.mark '+', .mark '+', .mark ')', .mark '\x7b'] := fun _ => rfl
  have name := spells_word (isWord_counterName counter)
  have number := spells_word (isNumeral_repr bound).word
  have first := (starts.append_spells name).append zero ⟨_, rfl, rfl⟩
  have second := (first.append_spells name).append below ⟨_, rfl, rfl⟩
  have third := (second.append_spells number).append next ⟨_, rfl, rfl⟩
  have whole := (third.append_spells name).append ends ⟨_, rfl, rfl⟩
  exact whole.spells.tokens_eq

/-- The head of a loop opens a block with its counter. -/
theorem readAll_loopHead (counter bound : Nat)
    : Reader.readAll ⟨block, around :: outer, loops, functions, .start⟩
        (tokens (Writer.loopHead counter bound))
      = some
          ⟨[counterName counter], block :: around :: outer, counterName counter :: loops, functions,
            .start⟩ := by
  have free := not_isReserved_counterName counter
  let typed : Reader := ⟨block, around :: outer, loops, functions, ⟨[], 1, true, true, false⟩⟩
  let head : Reader :=
    ⟨block, around :: outer, counterName counter :: loops, functions,
      ⟨[counterName counter], 1, false, true, false⟩⟩
  have declares : typed.read (.word (counterName counter)) = some head := by
    rw [Reader.read, typed.word_of_free free]
    rfl
  have named : head.read (.word (counterName counter)) = some head := by
    have quiet : Quiet [counterName counter] [.word (counterName counter)] :=
      .name free List.mem_cons_self
    simpa using quiet head rfl (by simp [head, Reader.visible])
  have number : head.read (.word bound.repr) = some head := by
    simpa using Quiet.number (isNumeral_repr bound).digit head rfl (List.nil_subset _)
  rw [tokens_loopHead]
  change (typed.read (.word (counterName counter))).bind _ = _
  rw [declares]
  change (head.read (.word (counterName counter))).bind _ = _
  rw [named]
  change (head.read (.word bound.repr)).bind _ = _
  rw [number]
  change (head.read (.word (counterName counter))).bind _ = _
  rw [named]
  rfl

/-- The brace behind a loop forgets what its block declares. -/
theorem readAll_closeLoop (inside : List String)
    : Reader.readAll ⟨inside, block :: around :: outer, loops, functions, .start⟩ (tokens "\x7d")
      = some ⟨block, around :: outer, loops, functions, .start⟩ :=
  rfl

/-- A reader gets through one more line. -/
theorem readAll_line {reader between next : Reader} {writer : Writer} {statement : String}
    (written : reader.readAll (writer.lines.flatMap tokens) = some between)
    (taken : between.readAll (tokens statement) = some next)
    : reader.readAll ((writer.line statement).lines.flatMap tokens) = some next := by
  rw [tokens_line, Reader.readAll_append, written, Option.bind_some, taken]

/-- The statement that takes an element into a fold uses what the element and the fold use. -/
theorem exists_accumulate (dtype : DType) (op : Reduction) {total operand : String}
    (usesTotal : Uses names total) (usesOperand : Uses names operand)
    : ∃ text, Spelling.accumulate dtype op total operand = text ++ ";" ∧ Uses names text := by
  cases op with
  | sum =>
      have adds : Joins names " += " := joins_of_operator (by decide)
      exact ⟨_, rfl, usesTotal.join adds usesOperand⟩
  | max =>
      have comma : Joins names ", " := joins_of_operator (by decide)
      have sets : Joins names " = " := joins_of_operator (by decide)
      have known : "fmax" ∈ mathNames := by decide
      have ends : ");" = ")" ++ ";" := rfl
      refine ⟨_, ?_, usesTotal.join sets (dtype.uses_call known (usesTotal.join comma usesOperand))⟩
      rw [Spelling.accumulate, ends]
      simp only [String.append_assoc]

/-- A reader gets through the lines of a scoped statement, by induction on the statement. What the
statement declares is then known, and what its loops declare is not.
-/
theorem readAll_write (dtype : DType) {body : Stmt} {reader : Reader} {writer : Writer}
    (allowed : body.Scoped names)
    (written
      : reader.readAll (writer.lines.flatMap tokens)
        = some ⟨block, around :: outer, loops, functions, .start⟩)
    (known : names ⊆ block ++ (around :: outer).flatten)
    : reader.readAll ((body.write dtype writer).lines.flatMap tokens)
      = some
          ⟨body.declared ++ block, around :: outer, body.loopCounters.map counterName ++ loops,
            functions, .start⟩ := by
  induction body generalizing names writer block around outer loops with
  | skip => exact written
  | seq first second ihFirst ihSecond =>
      have between := ihFirst allowed.1 written known
      have more
          : first.declared ++ names ⊆ (first.declared ++ block) ++ (around :: outer).flatten := by
        rw [List.append_assoc]
        exact List.append_subset.mpr
          ⟨List.subset_append_left _ _, List.Subset.trans known (List.subset_append_right _ _)⟩
      have after := ihSecond allowed.2 between more
      simpa only [Stmt.write, Stmt.declared, Stmt.loopCounters, List.map_append,
        List.append_assoc] using after
  | loop counter bound body ih =>
      have opened
          : reader.readAll ((writer.enter counter bound).lines.flatMap tokens)
            = some
                ⟨[counterName counter], block :: around :: outer, counterName counter :: loops,
                  functions, .start⟩ :=
        readAll_line written (readAll_loopHead counter bound)
      have inside := ih allowed opened (List.cons_subset_cons _ known)
      rw [Stmt.loopCounters, List.map_append, List.append_assoc]
      exact readAll_line inside (readAll_closeLoop _)
  | store address value =>
      obtain ⟨output, rest⟩ := List.cons_subset.mp allowed
      obtain ⟨counters, operands⟩ := List.append_subset.mp rest
      have sets : Joins names " = " := joins_of_operator (by decide)
      have uses :=
        (Address.uses_output output counters).join sets (Expr.uses_text dtype operands)
      exact readAll_line written (readAll_statement uses known)
  | fold op address value =>
      obtain ⟨output, rest⟩ := List.cons_subset.mp allowed
      obtain ⟨counters, operands⟩ := List.append_subset.mp rest
      obtain ⟨text, same, uses⟩ :=
        exists_accumulate dtype op (Address.uses_output output counters)
          (Expr.uses_text dtype operands)
      rw [Stmt.write, same]
      exact readAll_line written (readAll_statement uses known)
  | startSum value =>
      exact readAll_line written (readAll_startSum dtype (Expr.uses_text dtype allowed) known)
  | addProduct left right =>
      obtain ⟨sum, rest⟩ := List.cons_subset.mp allowed
      obtain ⟨knownLeft, knownRight⟩ := List.append_subset.mp rest
      have adds : Joins names " += " := joins_of_operator (by decide)
      have times : Joins names " * " := joins_of_operator (by decide)
      have total : Uses names "acc" := .name ⟨by decide, by decide⟩ (by decide) sum
      have uses :=
        (total.join adds (Expr.uses_text dtype knownLeft)).join times
          (Expr.uses_text dtype knownRight)
      have opened : "acc += " = "acc" ++ " += " := rfl
      rw [Stmt.write, opened]
      exact readAll_line written (readAll_statement uses known)
  | storeSum address =>
      obtain ⟨output, rest⟩ := List.cons_subset.mp allowed
      obtain ⟨sum, counters⟩ := List.cons_subset.mp rest
      have sets : Joins names " = " := joins_of_operator (by decide)
      have total : Uses names "acc" := .name ⟨by decide, by decide⟩ (by decide) sum
      have uses := (Address.uses_output output counters).join sets total
      have ends : " = acc;" = " = " ++ "acc" ++ ";" := rfl
      rw [Stmt.write, ends, ← String.append_assoc, ← String.append_assoc]
      exact readAll_line written (readAll_statement uses known)

/-- A reader gets through the lines of a kernel that is scoped. -/
theorem readAll_lines (dtype : DType) {body : Stmt} (allowed : body.Scoped names)
    (known : names ⊆ block ++ (around :: outer).flatten)
    : Reader.readAll ⟨block, around :: outer, loops, functions, .start⟩
        ((body.lines dtype).flatMap tokens)
      = some
          ⟨body.declared ++ block, around :: outer, body.loopCounters.map counterName ++ loops,
            functions, .start⟩ :=
  readAll_write dtype allowed rfl known

end Reading

-----------------------------------------------------------------------------------------
-- Kernels
-----------------------------------------------------------------------------------------

/-- An address is made of the counters that meet strides, by induction on them. -/
theorem names_strided (vars strides : List Nat)
    : (strided vars strides).names ⊆ vars.map counterName := by
  induction vars generalizing strides with
  | nil => cases strides <;> exact List.nil_subset _
  | cons var rest ih =>
      cases strides with
      | nil => exact List.nil_subset _
      | cons stride others => exact List.cons_subset_cons _ (ih others)

theorem names_shifted (vars : List Nat) (padding : List (Nat × Nat)) (strides : List Nat)
    : (shifted vars padding strides).names ⊆ vars.map counterName := by
  induction vars generalizing padding strides with
  | nil => cases strides <;> exact List.nil_subset _
  | cons var rest ih =>
      cases padding with
      | nil => cases strides <;> exact List.nil_subset _
      | cons pair pairs =>
          cases strides with
          | nil => exact List.nil_subset _
          | cons stride others => exact List.cons_subset_cons _ (ih pairs others)

theorem names_read {source : Nat} {names : List String} (known : sourceName source ∈ names)
    (vars strides : List Nat)
    : (Expr.read source (strided vars strides)).names ⊆ vars.map counterName ++ names :=
  List.cons_subset.mpr
    ⟨List.mem_append_right _ known,
      List.Subset.trans (names_strided vars strides) (List.subset_append_left _ _)⟩

variable {names : List String}

theorem Stmt.scoped_fillFlat {count : Nat} {value : Expr} (output : "out" ∈ names)
    (known : value.names ⊆ counterName 0 :: names)
    : (fillFlat count value).Scoped names := by
  refine List.cons_subset.mpr ⟨List.mem_cons_of_mem _ output, ?_⟩
  exact List.cons_subset.mpr ⟨List.mem_cons_self, known⟩

/-- A nest around a write to the output is scoped if the address and the value use counters of the
nest and what is declared around it.
-/
theorem Stmt.scoped_move {first : Nat} {shape : Shape} {address : Address} {value : Expr}
    {body : Stmt} (cell : body.Scoped ("out" :: (address.names ++ value.names)))
    (output : "out" ∈ names)
    (inside : address.names ⊆ (counters first shape.length).map counterName)
    (known : value.names ⊆ (counters first shape.length).map counterName ++ names)
    : (nest first shape body).Scoped names := by
  refine scoped_nest first shape (cell.mono ?_)
  refine List.cons_subset.mpr ⟨List.mem_append_right _ output, List.append_subset.mpr ⟨?_, known⟩⟩
  exact List.Subset.trans inside (List.subset_append_left _ _)

/-- A map of two arrays is scoped if the output and both sources are declared. -/
theorem Stmt.scoped_zipKernel (op : BinaryMap) (left right : Layout) {names : List String}
    (output : "out" ∈ names) (first : sourceName 0 ∈ names) (second : sourceName 1 ∈ names)
    : (zipKernel op left right).Scoped names := by
  refine scoped_move (List.Subset.refl _) output (names_strided _ _) ?_
  exact List.append_subset.mpr ⟨names_read first _ _, names_read second _ _⟩

end Kernel

open Kernel

/-- The kernel of a task is scoped if the output and the sources are declared, and the generator for
a task that draws.
-/
theorem Task.Runs.scoped {task : Task} {program : Stmt} (runs : task.Runs program)
    {names : List String} (output : "out" ∈ names)
    (sources : ∀ source < task.sources.length, sourceName source ∈ names)
    (generator : task.kind = .fill .random → "kiln_splitmix64" ∈ names)
    : program.Scoped names := by
  have flat : [counterName 0] ⊆ counterName 0 :: names := by simp
  cases runs with
  | empty target dense => exact Stmt.scoped_fillFlat output (List.nil_subset _)
  | constant target bits dense => exact Stmt.scoped_fillFlat output (List.nil_subset _)
  | random target seed dense =>
      refine Stmt.scoped_fillFlat output ?_
      exact List.cons_subset.mpr ⟨List.mem_cons_of_mem _ (generator rfl), flat⟩
  | unary op source target kept =>
      refine Stmt.scoped_fillFlat output ?_
      exact List.cons_subset.mpr ⟨List.mem_cons_of_mem _ (sources 0 Nat.one_pos), flat⟩
  | binary op left right target elementwise same dense =>
      exact Stmt.scoped_zipKernel op _ _ output (sources 0 Nat.two_pos) (sources 1 Nat.one_lt_two)
  | matmul left right target leftShape rightShape dense =>
      have factors {vars : List Nat} (inside : vars ⊆ [0, 1, 2])
          : vars.map counterName ++ names
            ⊆ counterName 2 :: "acc" :: counterName 1 :: counterName 0 :: names := by
        refine List.append_subset.mpr
          ⟨List.Subset.trans (List.map_subset _ inside) (by simp), ?_⟩
        exact fun name member => by simp [member]
      have cell : [0, 1].map counterName ⊆ "acc" :: counterName 1 :: counterName 0 :: names := by
        simp
      refine ⟨List.nil_subset _, List.cons_subset.mpr ⟨?_, List.append_subset.mpr ⟨?_, ?_⟩⟩,
        List.cons_subset.mpr ⟨?_, List.cons_subset.mpr ⟨?_, ?_⟩⟩⟩
      · simp [Stmt.declared]
      · exact List.Subset.trans (names_read (sources 0 Nat.two_pos) _ _) (factors (by decide))
      · exact List.Subset.trans (names_read (sources 1 Nat.one_lt_two) _ _) (factors (by decide))
      · simp [Stmt.declared, output]
      · simp [Stmt.declared]
      · exact List.Subset.trans (names_strided _ _) cell
  | reduce op source target inside dense =>
      refine ⟨Stmt.scoped_fillFlat output (List.nil_subset _), ?_⟩
      refine Stmt.scoped_move (List.Subset.refl _) output ?_ (names_read (sources 0 Nat.one_pos) _ _)
      exact List.Subset.trans (names_strided _ _) (List.map_subset _ (List.eraseIdx_subset))
  | permute source target accepted dense =>
      refine Stmt.scoped_move (List.Subset.refl _) output ?_ (names_read (sources 0 Nat.one_pos) _ _)
      refine List.Subset.trans (names_strided _ _) (List.map_subset _ ?_)
      intro counter member
      obtain ⟨axis, _, found⟩ := List.mem_filterMap.mp member
      exact List.mem_of_getElem? found
  | pad source target length padded dense =>
      refine ⟨Stmt.scoped_fillFlat output (List.nil_subset _), ?_⟩
      exact Stmt.scoped_move (List.Subset.refl _) output (names_shifted _ _ _)
        (names_read (sources 0 Nat.one_pos) _ _)

/-- All loops of a kernel have counters of their own. -/
theorem Task.Runs.nodup_loopCounters {task : Task} {program : Stmt} (runs : task.Runs program)
    : program.loopCounters.Nodup := by
  have flat (count : Nat) (value : Expr) : (fillFlat count value).loopCounters.Nodup := by
    simp [fillFlat, Stmt.loopCounters]
  have nested (first : Nat) (shape : Shape) {body : Stmt} (plain : body.loopCounters = [])
      : (nest first shape body).loopCounters.Nodup := by
    rw [loopCounters_nest, plain, List.nil_append, List.nodup_reverse]
    exact List.nodup_range'
  have twice (count : Nat) (value : Expr) (shape : Shape) {body : Stmt}
      (plain : body.loopCounters = [])
      : (Stmt.seq (fillFlat count value) (nest 1 shape body)).loopCounters.Nodup := by
    refine List.nodup_append.mpr ⟨nested 1 shape plain, flat count value, ?_⟩
    rw [loopCounters_nest, plain, List.nil_append]
    intro counter inside other member
    obtain rfl := List.mem_singleton.mp member
    have positive := (List.mem_range'_1.mp (List.mem_reverse.mp inside)).1
    exact (Nat.lt_of_lt_of_le Nat.one_pos positive).ne'
  cases runs with
  | empty | constant | random | unary => exact flat _ _
  | binary => exact nested _ _ rfl
  | matmul =>
      change List.Nodup [2, 1, 0]
      decide
  | reduce | pad => exact twice _ _ _ rfl
  | permute => exact nested _ _ rfl

end LazyTensor
