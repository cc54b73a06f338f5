import LazyTensor.Proofs.Kernel.Scoping

/-! Source units are well scoped. The text of a unit is one function with the name and the parameters
of the kernel, behind the generator for a kernel that draws. Its braces are balanced, its loops have
counters of their own, and no name is used outside the blocks that declare it.
-/

namespace LazyTensor

open Code Kernel

-----------------------------------------------------------------------------------------
-- Names of functions
-----------------------------------------------------------------------------------------

/-- The name of a kernel starts with a letter, the first one of a family, and has an underscore. -/
theorem Task.exists_toList_kernelName (task : Task)
    : ∃ first rest,
        task.kernelName.toList = first :: rest
        ∧ first.isAlpha = true
        ∧ first.isDigit = false
        ∧ '_' ∈ rest := by
  have families
      : ∀ kind ∈ OpKind.all,
          kind.family ≠ ""
          ∧ kind.family.toList.head?.all (fun first => first.isAlpha && !first.isDigit) = true := by
    decide
  obtain ⟨nonempty, start⟩ := families task.kind task.kind.mem_all
  obtain ⟨first, letters, same⟩ :=
    List.exists_cons_of_ne_nil (mt String.toList_eq_nil_iff.mp nonempty)
  rw [same] at start
  obtain ⟨letter, digit⟩ := Bool.and_eq_true_iff.mp start
  refine ⟨first, letters ++ (behind (task.namePieces.drop 1)).toList, ?_, letter, ?_, ?_⟩
  · rw [kernelName_eq, namePieces, Text.intercalate_cons, ← behind, String.toList_append, same]
    rfl
  · simpa using digit
  · simp [namePieces, behind]

/-- The name of a kernel can be that of a function. -/
theorem Task.isIdentifier_kernelName (task : Task) : IsIdentifier task.kernelName := by
  obtain ⟨first, rest, same, letter, _⟩ := task.exists_toList_kernelName
  refine ⟨first, rest, same, letter, List.all_eq_true.mpr ?_⟩
  intro char member
  by_contra other
  simp only [isWordChar, Bool.or_eq_true, beq_iff_eq, not_or, Bool.not_eq_true] at other
  refine task.notMem_kernelName other.1 other.2 ?_
  rw [same]
  exact List.mem_cons_of_mem _ member

/-- The name of a kernel is not reserved: no reserved word has an underscore behind a letter. -/
theorem Task.not_isReserved_kernelName (task : Task) : ¬IsReserved task.kernelName := by
  obtain ⟨first, rest, same, letter, digit, underscore⟩ := task.exists_toList_kernelName
  have words
      : ∀ word ∈ typeWords ++ keywords ++ library,
          '_' ∈ word.toList → word.toList.head?.any Char.isAlpha = false := by
    decide
  have number : isNumber task.kernelName = false := by
    rw [isNumber, same]
    exact digit
  have absent : task.kernelName ∉ typeWords ++ keywords ++ library := by
    intro member
    have start := words _ member
    rw [same] at start
    exact absurd (letter.symm.trans (start (List.mem_cons_of_mem _ underscore))) (by decide)
  simp only [List.mem_append, not_or] at absent
  simp [IsReserved, number, absent]

-----------------------------------------------------------------------------------------
-- Heads of functions
-----------------------------------------------------------------------------------------

namespace Kernel

/-- A text between the parentheses of a function declares some names there. -/
def Declares (names : List String) (text : String) : Prop :=
  ∃ list,
    Spells text list
    ∧ ∀ block outer loops functions declared,
        Reader.readAll ⟨block, outer, loops, functions, ⟨declared, 1, false, false, false⟩⟩ list
          = some
              ⟨block, outer, loops, functions, ⟨names.reverse ++ declared, 1, false, false, false⟩⟩

/-- A parameter declares the word behind its type. -/
theorem declares_word {front name : String} {list : List Token} (word : IsWord name)
    (free : ¬IsReserved name) (seals : Seals front list)
    (typed
      : ∀ block outer loops functions declared,
          Reader.readAll ⟨block, outer, loops, functions, ⟨declared, 1, false, false, false⟩⟩ list
            = some ⟨block, outer, loops, functions, ⟨declared, 1, true, false, false⟩⟩)
    : Declares [name] (front ++ name) := by
  refine ⟨_, seals.append_spells (spells_word word), ?_⟩
  intro block outer loops functions declared
  rw [Reader.readAll_append, typed, Option.bind_some, Reader.readAll_cons, Reader.read,
    Reader.word_of_free _ free]
  rfl

/-- Parameters declare their names one after the other, by induction on them. -/
theorem declares_intercalate {texts names : List String} (nonempty : texts ≠ [])
    (each : List.Forall₂ (fun text name => Declares [name] text) texts names)
    : Declares names (", ".intercalate texts) := by
  induction each with
  | nil => exact absurd rfl nonempty
  | @cons text name texts names first others ih =>
      cases others with
      | nil => simpa using first
      | @cons next name' texts names second others =>
          obtain ⟨list, spells, reads⟩ := first
          obtain ⟨list', spells', reads'⟩ := ih (List.cons_ne_nil _ _)
          have comma : Seals ", " [.mark ','] := fun _ => rfl
          rw [String.intercalate_cons_cons]
          refine ⟨_, (spells.append comma ⟨_, rfl, rfl⟩).append_spells spells', ?_⟩
          intro block outer loops functions declared
          let inside : Reader :=
            ⟨block, outer, loops, functions, ⟨name :: declared, 1, false, false, false⟩⟩
          have between : inside.readAll [.mark ','] = some inside := rfl
          rw [Reader.readAll_append, Reader.readAll_append, reads, Option.bind_some]
          change ((inside.readAll [.mark ',']).bind _) = _
          rw [between, Option.bind_some, reads']
          simp

/-- The parameters of a kernel are the output and the sources. -/
theorem declares_parameters (dtype : DType) (arity : Nat)
    : Declares ("out" :: (List.range arity).map sourceName)
        (", ".intercalate (parameters dtype arity)) := by
  have output : Declares ["out"] (dtype.cType ++ "* restrict out") := by
    have seals
        : Seals (dtype.cType ++ "* restrict ")
            [.word dtype.cType, .mark '*', .word "restrict"] := by
      cases dtype <;> exact fun _ => rfl
    have ends : "* restrict out" = "* restrict " ++ "out" := rfl
    rw [ends, ← String.append_assoc]
    exact declares_word ⟨by decide, by decide⟩ (by decide) seals
      (by cases dtype <;> intro _ _ _ _ _ <;> rfl)
  have source (number : Nat)
      : Declares [sourceName number]
          ("const " ++ dtype.cType ++ "* restrict in" ++ number.repr) := by
    have seals
        : Seals ("const " ++ dtype.cType ++ "* restrict ")
            [.word "const", .word dtype.cType, .mark '*', .word "restrict"] := by
      cases dtype <;> exact fun _ => rfl
    have ends : "* restrict in" = "* restrict " ++ "in" := rfl
    have same
        : "const " ++ dtype.cType ++ "* restrict in" ++ number.repr
          = "const " ++ dtype.cType ++ "* restrict " ++ sourceName number := by
      rw [ends, sourceName]
      simp only [String.append_assoc]
    rw [same]
    exact declares_word (isWord_sourceName number) (not_isReserved_sourceName number) seals
      (by cases dtype <;> intro _ _ _ _ _ <;> rfl)
  refine declares_intercalate (List.cons_ne_nil _ _) (.cons output ?_)
  rw [List.forall₂_map_left_iff, List.forall₂_map_right_iff]
  exact List.forall₂_same.mpr fun number _ => source number

/-- The functions that stand in front of a kernel. -/
def helpers (kind : OpKind) : List Function :=
  if kind = .fill .random then [⟨"kiln_splitmix64", true, ["seed", "i"]⟩] else []

/-- What stands in front of a kernel defines the generator, if the kernel draws. -/
theorem readAll_preamble (kind : OpKind)
    : Reader.start.readAll ((preamble kind).flatMap tokens)
      = some ⟨(helpers kind).map (·.name), [], [], helpers kind, .start⟩ := by
  by_cases draws : kind = .fill .random
  · subst draws
    simp only [preamble, generatorText, if_pos, List.cons_append, List.nil_append,
      List.flatMap_cons, List.flatMap_nil, tokens]
    repeat rw [String.toList_ofList]
    decide +kernel
  · rw [preamble, helpers, if_neg draws, if_neg draws]
    rfl

/-- The line that opens a kernel declares it and its parameters. -/
theorem readAll_signature {name : String} (word : IsWord name) (free : ¬IsReserved name)
    (dtype : DType) (arity : Nat) (file : List String) (functions : List Function)
    : let names := "out" :: (List.range arity).map sourceName
      Reader.readAll ⟨file, [], [], functions, .start⟩ (tokens (signature name dtype arity))
        = some ⟨names.reverse, [name :: file], [], ⟨name, false, names⟩ :: functions, .start⟩ := by
  intro names
  obtain ⟨list, spells, reads⟩ := declares_parameters dtype arity
  have starts : Seals "void " [.word "void"] := fun _ => rfl
  have opens : Seals "(" [.mark '('] := fun _ => rfl
  have ends : Seals ") \x7b" [.mark ')', .mark '\x7b'] := fun _ => rfl
  have head := (starts.append_spells (spells_word word)).append opens ⟨_, rfl, rfl⟩
  have whole := ((head.append_spells spells).append ends ⟨_, rfl, rfl⟩).spells.tokens_eq
  have declares
      : Reader.readAll ⟨file, [], [], functions, .start⟩
          ([.word "void"] ++ [.word name] ++ [.mark '('])
        = some ⟨name :: file, [], [], functions, ⟨[], 1, false, false, false⟩⟩ := by
    change (Reader.read ⟨file, [], [], functions, ⟨[], 0, true, false, false⟩⟩ (.word name)).bind _
      = _
    rw [Reader.read, Reader.word_of_free _ free]
    rfl
  rw [signature, whole, Reader.readAll_append, Reader.readAll_append, declares, Option.bind_some,
    reads, Option.bind_some, List.append_nil]
  change some (Reader.mk _ _ _ (⟨name, false, names.reverse.reverse⟩ :: functions) _) = _
  rw [List.reverse_reverse]

end Kernel

-----------------------------------------------------------------------------------------
-- Units
-----------------------------------------------------------------------------------------

/-- A source unit is well scoped, and what has been declared behind it is what `reader` holds. -/
structure SourceUnit.WellScoped (unit : SourceUnit) (reader : Reader) : Prop where
  name : IsIdentifier unit.name
  read : Reader.start.readAll (tokens unit.source) = some reader
  /-- One function can be called from elsewhere. -/
  function
    : reader.functions.filter (!·.isStatic)
      = [⟨unit.name, false, "out" :: (List.range unit.arity).map sourceName⟩]
  counters : reader.loops.Nodup
  balanced : Reader.opened (tokens unit.source) = Reader.closed (tokens unit.source)
  nested
    : ∀ front rest,
        tokens unit.source = front ++ rest → Reader.closed front ≤ Reader.opened front
  /-- Where a name stands, it is declared there or by a block that is open. -/
  declared
    : ∀ front name rest,
        tokens unit.source = front ++ .word name :: rest →
          ¬IsReserved name →
            ∃ between,
              Reader.start.readAll front = some between
              ∧ (between.clause.isTyped = true ∨ name ∈ between.visible)

/-- What a reader has at the end of a text in which all blocks are closed makes it well scoped. -/
theorem SourceUnit.wellScoped_of_read {unit : SourceUnit} {reader : Reader}
    (name : IsIdentifier unit.name)
    (read : Reader.start.readAll (tokens unit.source) = some reader)
    (function
      : reader.functions.filter (!·.isStatic)
        = [⟨unit.name, false, "out" :: (List.range unit.arity).map sourceName⟩])
    (counters : reader.loops.Nodup) (file : reader.outer = [])
    : unit.WellScoped reader where
  name := name
  read := read
  function := function
  counters := counters
  balanced := by
    have depth := Reader.depth_of_readAll read
    rw [file] at depth
    have start : Reader.start.outer.length = 0 := rfl
    rw [start, List.length_nil] at depth
    omega
  nested := by
    intro front rest same
    rw [same] at read
    exact Reader.closed_le_opened read
  declared := by
    intro front word rest same free
    rw [same] at read
    exact Reader.exists_between free read

/-- A reader gets through the text of a unit, and behind it all blocks are closed. -/
theorem Task.Runs.readAll_unit {task : Task} {program : Stmt} (runs : task.Runs program)
    : let parameters := "out" :: (List.range task.sources.length).map sourceName
      let functions := ⟨task.kernelName, false, parameters⟩ :: helpers task.kind
      Reader.start.readAll (tokens (task.unit program).source)
        = some
            ⟨functions.map (·.name), [], program.loopCounters.map counterName, functions,
              .start⟩ := by
  intro parameters functions
  have allowed : program.Scoped (parameters.reverse ++ [functions.map (·.name)].flatten) := by
    refine runs.scoped ?_ ?_ ?_
    · simp [parameters]
    · intro source below
      have listed : sourceName source ∈ parameters :=
        List.mem_cons_of_mem _ (List.mem_map_of_mem (List.mem_range.mpr below))
      exact List.mem_append_left _ (List.mem_reverse.mpr listed)
    · intro draws
      simp [functions, helpers, draws]
  have front := readAll_preamble task.kind
  have head
      : Reader.readAll
          ⟨(helpers task.kind).map (·.name), [], [], helpers task.kind, .start⟩
          (tokens (signature task.kernelName task.target.dtype task.sources.length))
        = some ⟨parameters.reverse, [functions.map (·.name)], [], functions, .start⟩ :=
    readAll_signature task.isIdentifier_kernelName.isWord task.not_isReserved_kernelName
      task.target.dtype task.sources.length _ _
  have body
      : Reader.readAll ⟨parameters.reverse, [functions.map (·.name)], [], functions, .start⟩
          ((program.lines task.target.dtype).flatMap tokens)
        = some
            ⟨program.declared ++ parameters.reverse, [functions.map (·.name)],
              program.loopCounters.map counterName ++ [], functions, .start⟩ :=
    readAll_lines task.target.dtype allowed (List.Subset.refl _)
  have brace
      : Reader.readAll
          ⟨program.declared ++ parameters.reverse, [functions.map (·.name)],
            program.loopCounters.map counterName ++ [], functions, .start⟩
          (["\x7d", ""].flatMap tokens)
        = some
            ⟨functions.map (·.name), [], program.loopCounters.map counterName ++ [], functions,
              .start⟩ :=
    rfl
  rw [Task.unit, tokens_lines, List.flatMap_append, List.flatMap_append, List.flatMap_cons,
    Reader.readAll_append, Reader.readAll_append, front, Option.bind_some, Reader.readAll_append,
    head, Option.bind_some, body, Option.bind_some, brace, List.append_nil]

/-- The unit of a task is well scoped. -/
theorem Task.Runs.wellScoped {task : Task} {program : Stmt} (runs : task.Runs program)
    : ∃ reader, (task.unit program).WellScoped reader := by
  have static : (helpers task.kind).filter (!·.isStatic) = [] := by
    rw [helpers]
    split <;> rfl
  refine ⟨_, SourceUnit.wellScoped_of_read task.isIdentifier_kernelName runs.readAll_unit ?_ ?_ rfl⟩
  · exact congrArg (List.cons _) static
  · exact runs.nodup_loopCounters.map counterName_injective

/-- On every desk that callers can come to, every task of the schedule of a buffer is rendered to a
source unit with the name and the arity of the task, and the unit is well scoped.
-/
theorem Desk.Reachable.unit_wellScoped {desk : Desk} (reached : desk.Reachable) {buffer : Buffer}
    (held : buffer ∈ desk.buffers) {schedule : Schedule}
    (scheduled : (desk.workspace.graph buffer.graph).schedule buffer.node = .ok schedule)
    {task : Task} (member : task ∈ schedule)
    : ∃ unit reader,
        task.render = .ok unit
        ∧ unit.name = task.kernelName
        ∧ unit.arity = task.sources.length
        ∧ unit.WellScoped reader := by
  obtain ⟨program, fits⟩ := reached.wellFormed.task_fits held scheduled member
  obtain ⟨reader, scopes⟩ := fits.runs.wellScoped
  exact ⟨_, reader, fits.render_eq, rfl, rfl, scopes⟩

/-- The kernel that sums the columns of a sample, named by its operation, is well scoped. -/
theorem Desk.unit_wellScoped_sample
    : ∃ unit reader,
        sums.render = .ok unit
        ∧ unit.name = "reduce_sum_f32_2x3_f2x1_d0"
        ∧ unit.arity = 1
        ∧ unit.WellScoped reader := by
  have held : sampleSums ∈ sample.buffers := by decide
  have scheduled
      : (sample.workspace.graph sampleSums.graph).schedule sampleSums.node
        = .ok [ones, negation 1, sums] := by
    rfl
  have listed : sums ∈ [ones, negation 1, sums] := by decide
  obtain ⟨unit, reader, rendered, name, arity, scopes⟩ :=
    reachable_sample.unit_wellScoped held scheduled listed
  have written : sums.kernelName = "reduce_sum_f32_2x3_f2x1_d0" := by decide +kernel
  exact ⟨unit, reader, rendered, name.trans written, arity, scopes⟩

end LazyTensor
