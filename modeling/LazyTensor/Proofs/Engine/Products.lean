import LazyTensor.Proofs.Engine.Arrays
import LazyTensor.Proofs.Reference.Contraction

/-! Products of arrays along runs. A composed contraction is refused only for its size, and whenever
it is computed later on, its elements are sums of products of the elements that its operands showed
when it was asked for. The product of two matrices as one operation comes to the same sums, so both
store the same elements, wherever and whenever each of them is computed.
-/

namespace LazyTensor

/-- Storages of as many elements as a layout reads hold the same if they show the same. -/
theorem Layout.Shows.cells_eq {layout : Layout} (wf : layout.WellFormed)
    {cells others : Array Pattern} {array other : LogicalArray} (shows : layout.Shows cells array)
    (showsOther : layout.Shows others other) (size : cells.size = layout.physicalSize)
    (sizeOther : others.size = layout.physicalSize)
    (same : ∀ index, layout.shape.Holds index → array.value index = other.value index)
    : cells = others := by
  refine Array.ext_getElem? fun place => ?_
  by_cases below : place < layout.current.physicalSize
  · obtain ⟨held, stands⟩ := wf.current.place_indexOf below
    have found := shows.value _ held
    have foundOther := showsOther.value _ held
    rw [← same _ held, ← found] at foundOther
    change others[layout.current.place _]? = cells[layout.current.place _]? at foundOther
    rw [stands] at foundOther
    exact foundOther.symm
  · have outside : layout.physicalSize ≤ place := Nat.le_of_not_lt below
    rw [Array.getElem?_eq_none (size.trans_le outside),
      Array.getElem?_eq_none (sizeOther.trans_le outside)]

namespace Workbench

variable {arith : Arithmetic} {bench later : Workbench}

/-- What is known of a buffer of a product: it is held and dense, and in all later states it shows
the contraction of two arrays.
-/
structure Contracts (arith : Arithmetic) (bench : Workbench) (dtype : DType)
    (left right : LogicalArray) (outer rest : Shape) (result : Buffer)
    : Prop where
  held : result ∈ bench.desk.buffers
  type : result.dtype = dtype
  layout : result.layout = .dense (outer ++ rest)
  value
    : ∀ later, bench.LeadsTo arith later → ∀ row column, outer.Holds row → rest.Holds column →
        (later.array arith result).value (row ++ column)
          = left.contracted arith dtype right row column

section

variable {left right result : Buffer}

/-- The arrays of two operands are the same in all states after a product of them was asked for. -/
theorem LeadsTo.operands_eq (leads : bench.LeadsTo arith later) (sound : bench.Sound arith)
    (heldLeft : left ∈ bench.desk.buffers) (heldRight : right ∈ bench.desk.buffers)
    (sameGraph : left.graph = right.graph)
    : (later.desk.workspace.graph left.graph).shown arith (later.given left.graph) left.source
        = bench.array arith left
      ∧ (later.desk.workspace.graph left.graph).shown arith (later.given left.graph) right.source
        = bench.array arith right := by
  refine ⟨leads.array_eq sound heldLeft, ?_⟩
  rw [sameGraph]
  exact leads.array_eq sound heldRight

theorem Sound.contracts_matmul (standard : arith.Standard) (sound : bench.Sound arith)
    (heldLeft : left ∈ bench.desk.buffers) (heldRight : right ∈ bench.desk.buffers)
    {outer rest : Shape} {inner : Nat} (leftShape : left.shape = outer ++ [inner])
    (rightShape : right.shape = inner :: rest)
    (answer : (bench.desk.workspace.build left.graph (left.matmul right)).1 = .ok result)
    : bench.LeadsTo arith (bench.call (.matmul left right))
      ∧ (bench.call (.matmul left right)).Contracts arith left.dtype (bench.array arith left)
          (bench.array arith right) outer rest result := by
  obtain ⟨leads, held, extends_⟩ :=
    sound.call_answers standard (.matmul left right) (sound.present heldLeft)
      (by simp [BuildCall.operands, heldLeft, heldRight]) answer
  obtain ⟨sameGraph, sameType, _⟩ := (left.matmul_ends right _).of_ok answer
  obtain ⟨made, contracts⟩ :=
    (Buffer.contracts_matmul sameGraph sameType leftShape rightShape _).of_ok answer
  have own := (sound.desk.workspace left.graph).1
  rw [own] at made
  refine ⟨leads, held, by rw [made], by rw [made], ?_⟩
  intro later leadsOn row column heldRow heldColumn
  obtain ⟨leftArray, rightArray⟩ :=
    (leads.trans leadsOn).operands_eq sound heldLeft heldRight sameGraph
  rw [← leftArray, ← rightArray, made]
  exact ((extends_ later leadsOn).contracts contracts).shown_eq
    (leadsOn.sound.desk.workspace left.graph).2 (sound.desk.buffers left heldLeft).2.1
    (sound.desk.buffers right heldRight).2.1 heldRow heldColumn

theorem Sound.contracts_dot (standard : arith.Standard) (sound : bench.Sound arith)
    (heldLeft : left ∈ bench.desk.buffers) (heldRight : right ∈ bench.desk.buffers)
    {rows inner columns : Nat} (leftShape : left.shape = [rows, inner])
    (rightShape : right.shape = [inner, columns])
    (answer : (bench.desk.workspace.build left.graph (left.dot right)).1 = .ok result)
    : bench.LeadsTo arith (bench.call (.dot left right))
      ∧ (bench.call (.dot left right)).Contracts arith left.dtype (bench.array arith left)
          (bench.array arith right) [rows] [columns] result := by
  obtain ⟨leads, held, extends_⟩ :=
    sound.call_answers standard (.dot left right) (sound.present heldLeft)
      (by simp [BuildCall.operands, heldLeft, heldRight]) answer
  obtain ⟨sameGraph, sameType, shape, _, recorded⟩ := (left.dot_ends right _).of_ok answer
  obtain rfl : shape = [rows, columns] := by
    cases recorded.yields with
    | binary _ _ _ elementwise => exact absurd rfl elementwise
    | matmul _ _ ownLeft ownRight =>
        obtain ⟨rfl, rfl⟩ : rows = _ ∧ inner = _ := by simpa using leftShape.symm.trans ownLeft
        obtain rfl : columns = _ := by simpa using rightShape.symm.trans ownRight
        rfl
  obtain ⟨made, _, _, given⟩ := Graph.madeBy_of_records recorded
  have own := (sound.desk.workspace left.graph).1
  rw [own] at given
  refine ⟨leads, held, by rw [given], by rw [given]; rfl, ?_⟩
  intro later leadsOn row column heldRow heldColumn
  -- Rows and columns of matrices are single coordinates.
  obtain ⟨i, _, rfl, below, empty⟩ := heldRow.exists_cons
  obtain rfl := Shape.holds_nil.mp empty
  obtain ⟨j, _, rfl, inside, empty⟩ := heldColumn.exists_cons
  obtain rfl := Shape.holds_nil.mp empty
  obtain ⟨leftArray, rightArray⟩ :=
    (leads.trans leadsOn).operands_eq sound heldLeft heldRight sameGraph
  rw [← leftArray, ← rightArray, given]
  exact ((extends_ later leadsOn).madeBy made).shown_matmul
    (leadsOn.sound.desk.workspace left.graph).2 leftShape rightShape below inside

end

section

variable {dtype : DType} {left right : LogicalArray} {outer rest : Shape} {result : Buffer}

/-- The contents of a contraction. -/
theorem Contracts.elements (contracts : bench.Contracts arith dtype left right outer rest result)
    (leads : bench.LeadsTo arith later) {storage : Storage}
    (final : later.desk.workspace.finished? result = some storage)
    : storage.dtype = dtype
      ∧ ∀ row column,
          outer.Holds row → rest.Holds column →
            storage.cells[(outer ++ rest).position (row ++ column)]?
              = some (left.contracted arith dtype right row column) := by
  obtain ⟨type, _, shows⟩ := leads.sound.finished_shows (leads.buffers contracts.held) final
  refine ⟨type.trans contracts.type, ?_⟩
  intro row column heldRow heldColumn
  have held : (outer ++ rest).Holds (row ++ column) := List.rel_append heldRow heldColumn
  have stands := shows.value (row ++ column)
  rw [contracts.layout, Layout.place_dense held,
    contracts.value later leads row column heldRow heldColumn] at stands
  exact stands held

/-- Buffers of one contraction have equal contents, whenever each of them is computed. -/
theorem Contracts.storage_eq {first second other : Workbench} {copy : Buffer}
    (contracts : first.Contracts arith dtype left right outer rest result)
    (contractsCopy : second.Contracts arith dtype left right outer rest copy)
    (leads : first.LeadsTo arith later) (leadsCopy : second.LeadsTo arith other)
    {storage stored : Storage} (final : later.desk.workspace.finished? result = some storage)
    (finalCopy : other.desk.workspace.finished? copy = some stored)
    : storage = stored := by
  obtain ⟨type, size, shows⟩ := leads.sound.finished_shows (leads.buffers contracts.held) final
  obtain ⟨typeCopy, sizeCopy, showsCopy⟩ :=
    leadsCopy.sound.finished_shows (leadsCopy.buffers contractsCopy.held) finalCopy
  have wf : result.layout.WellFormed :=
    (leads.sound.desk.buffers result (leads.buffers contracts.held)).2.1
  have layout : copy.layout = result.layout := contractsCopy.layout.trans contracts.layout.symm
  rw [layout] at sizeCopy showsCopy
  have cells : storage.cells = stored.cells := by
    refine shows.cells_eq wf showsCopy size sizeCopy ?_
    intro index held
    -- Every index of the result is a row and a column, split behind the outer dimensions.
    have whole : (outer ++ rest).Holds index := by
      rwa [contracts.layout] at held
    have heldRow := List.forall₂_take_append index outer rest whole
    have heldColumn := List.forall₂_drop_append index outer rest whole
    rw [← index.take_append_drop outer.length, contracts.value later leads _ _ heldRow heldColumn,
      contractsCopy.value other leadsCopy _ _ heldRow heldColumn]
  have types : storage.dtype = stored.dtype :=
    (type.trans contracts.type).trans (typeCopy.trans contractsCopy.type).symm
  obtain ⟨_, _⟩ := storage
  obtain ⟨_, _⟩ := stored
  rw [Storage.mk.injEq]
  exact ⟨types, cells⟩

end

/-- The contraction of two buffers that are held is refused for its size only. -/
theorem Sound.matmul_refused_iff (sound : bench.Sound arith) {left right : Buffer}
    (heldLeft : left ∈ bench.desk.buffers) (heldRight : right ∈ bench.desk.buffers)
    (sameGraph : left.graph = right.graph) (sameType : left.dtype = right.dtype)
    {outer rest : Shape} {inner : Nat} (leftShape : left.shape = outer ++ [inner])
    (rightShape : right.shape = inner :: rest)
    : (∃ cause, (bench.desk.workspace.build left.graph (left.matmul right)).1 = .error cause)
      ↔ wordRange ≤ (left.shape ++ right.shape.tail).volume := by
  have target : left.shape ++ right.shape.tail = outer ++ inner :: rest := by
    simp [leftShape, rightShape]
  have positive : ∀ extent ∈ outer ++ inner :: rest, 0 < extent := by
    intro extent member
    rw [← target] at member
    rcases List.mem_append.mp member with first | second
    · exact (sound.desk.buffers left heldLeft).2.1.current.fits.positive extent first
    · exact (sound.desk.buffers right heldRight).2.1.current.fits.positive extent
        (List.mem_of_mem_tail second)
  have ends := Buffer.contracts_matmul sameGraph sameType leftShape rightShape
    (bench.desk.workspace.graph left.graph)
  rw [target]
  constructor
  · rintro ⟨cause, failed⟩
    exact Nat.le_of_not_lt fun bounded => (ends.of_error failed).1 ⟨positive, bounded⟩
  · intro large
    cases answer : (bench.desk.workspace.build left.graph (left.matmul right)).1 with
    | error cause => exact ⟨cause, rfl⟩
    | ok result => exact absurd (ends.of_ok answer).2.fits.bounded large.not_gt

-----------------------------------------------------------------------------------------
-- Whole runs
-----------------------------------------------------------------------------------------

/-- Two arrays with a shared dimension, under whatever views, have a contraction unless their
dimensions together have too many elements. Whenever it is computed later on, it has at the place of
a row and a column the sum of the products along the shared dimension, in the order of its
coordinates and from zero on. The factors are the elements that the operands show, which are those
of their own storages where these are computed.
-/
theorem matmul_contracts (standard : arith.Standard)
    (reached : Relation.ReflTransGen (Act arith) .start bench) {left right : Buffer}
    (heldLeft : left ∈ bench.desk.buffers) (heldRight : right ∈ bench.desk.buffers)
    (sameGraph : left.graph = right.graph) (sameType : left.dtype = right.dtype)
    {outer rest : Shape} {inner : Nat} (leftShape : left.shape = outer ++ [inner])
    (rightShape : right.shape = inner :: rest)
    : let answer := (bench.desk.workspace.build left.graph (left.matmul right)).1
      ((∃ cause, answer = .error cause) ↔ wordRange ≤ (left.shape ++ right.shape.tail).volume)
      ∧ ∀ result,
          answer = .ok result
          → result.shape = outer ++ rest
            ∧ result.dtype = left.dtype
            ∧ ∀ later,
                Relation.ReflTransGen (Act arith) (bench.call (.matmul left right)) later
                → (∀ operand ∈ [left, right], ∀ storage,
                    later.desk.workspace.finished? operand = some storage
                    → operand.layout.Shows storage.cells (bench.array arith operand))
                  ∧ ∀ storage,
                      later.desk.workspace.finished? result = some storage
                      → storage.dtype = left.dtype
                        ∧ ∀ row column,
                            outer.Holds row → rest.Holds column →
                              storage.cells[(outer ++ rest).position (row ++ column)]?
                                = some
                                    ((bench.array arith left).contracted arith left.dtype
                                      (bench.array arith right) row column) := by
  have sound := sound_of_acts standard reached
  refine ⟨sound.matmul_refused_iff heldLeft heldRight sameGraph sameType leftShape rightShape, ?_⟩
  intro result answer
  obtain ⟨leads, contracts⟩ :=
    sound.contracts_matmul standard heldLeft heldRight leftShape rightShape answer
  refine ⟨congrArg Layout.shape contracts.layout, contracts.type, ?_⟩
  intro later acts
  have leadsOn := leads.sound.leadsTo_of_acts standard acts
  have all := leads.trans leadsOn
  have operands : ∀ operand ∈ [left, right], operand ∈ bench.desk.buffers := by
    simp [heldLeft, heldRight]
  refine ⟨?_, fun storage finished => contracts.elements leadsOn finished⟩
  intro operand member storage finished
  have held := operands operand member
  rw [← all.array_eq sound held]
  exact (all.sound.finished_shows (all.buffers held) finished).2.2

/-- The composed product of the matrices. -/
def sampleComposed : Buffer := ⟨0, 2, .float32, .dense [2, 1]⟩

/-- The product of the matrices as one operation. -/
def sampleFused : Buffer := ⟨0, 1, .float32, .dense [2, 1]⟩

/-- The matrices after a product of them was asked for and materialized. -/
def sampleProduct (call : BuildCall) (product : Buffer) : Workbench :=
  let asked := sampleMatrices.call call
  asked.withMachine 0
    (outcome (Machine.materialize .ieee product) (asked.machine sampleEngine)).2

theorem acts_sampleProduct {call : BuildCall} {product : Buffer}
    (held : product ∈ (sampleMatrices.call call).desk.buffers)
    : Relation.ReflTransGen (Act .ieee) (sampleMatrices.call call) (sampleProduct call product) :=
  .single (.step (.materialize _ 0 sampleEngine rfl product held))

/-- The engine makes the kernels of both products. -/
theorem finished_sampleProduct
    : ((sampleProduct (.matmul sampleColumns sampleColumn) sampleComposed).desk.workspace.finished?
          sampleComposed).isSome = true
      ∧ ((sampleProduct (.dot sampleColumns sampleColumn) sampleFused).desk.workspace.finished?
          sampleFused).isSome = true := by
  decide +kernel

/-- The second row times the column is two times one and two times two, and their sum is six. -/
theorem matmul_contracts_sample
    : ∃ storage,
        (sampleProduct (.matmul sampleColumns sampleColumn) sampleComposed).desk.workspace.finished?
            sampleComposed
          = some storage
        ∧ storage.cells[1]? = some 0x40C00000 := by
  obtain ⟨storage, finished⟩ := Option.isSome_iff_exists.mp finished_sampleProduct.1
  obtain ⟨_, made⟩ :=
    matmul_contracts Arithmetic.ieee_standard acts_sampleMatrices
      (show sampleColumns ∈ sampleMatrices.desk.buffers by decide)
      (show sampleColumn ∈ sampleMatrices.desk.buffers by decide) rfl rfl
      (show sampleColumns.shape = [2] ++ [2] from rfl) (show sampleColumn.shape = 2 :: [1] from rfl)
  obtain ⟨_, _, shows⟩ := made sampleComposed (by decide)
  obtain ⟨_, elements⟩ := (shows _ (acts_sampleProduct (by decide))).2 _ finished
  have value
      : (sampleMatrices.array .ieee sampleColumns).contracted .ieee .float32
            (sampleMatrices.array .ieee sampleColumn) [1] [0]
        = 0x40C00000 := by
    decide +kernel
  refine ⟨storage, finished, ?_⟩
  exact (elements [1] [0] (by simp) (by simp)).trans (congrArg some value)

/-- Two products of one pair of matrices, one composed and one a single operation, hold the same
elements: each may be asked for in a future of its own of a state where the matrices are held, under
whatever views, and be computed at any later time. Nothing is asked of addition and multiplication.
-/
theorem matmul_eq_dot (standard : arith.Standard)
    (reached : Relation.ReflTransGen (Act arith) .start bench)
    {left right : Buffer} (heldLeft : left ∈ bench.desk.buffers)
    (heldRight : right ∈ bench.desk.buffers) {rows inner columns : Nat}
    (leftShape : left.shape = [rows, inner]) (rightShape : right.shape = [inner, columns])
    {first second firstLast secondLast : Workbench}
    (toFirst : Relation.ReflTransGen (Act arith) bench first)
    (toSecond : Relation.ReflTransGen (Act arith) bench second) {composed fused : Buffer}
    (composes : (first.desk.workspace.build left.graph (left.matmul right)).1 = .ok composed)
    (fuses : (second.desk.workspace.build left.graph (left.dot right)).1 = .ok fused)
    (fromFirst : Relation.ReflTransGen (Act arith) (first.call (.matmul left right)) firstLast)
    (fromSecond : Relation.ReflTransGen (Act arith) (second.call (.dot left right)) secondLast)
    {storage other : Storage}
    (finished : firstLast.desk.workspace.finished? composed = some storage)
    (finishedOther : secondLast.desk.workspace.finished? fused = some other)
    : composed.layout = fused.layout ∧ storage = other := by
  have sound := sound_of_acts standard reached
  have leadsFirst := sound.leadsTo_of_acts standard toFirst
  have leadsSecond := sound.leadsTo_of_acts standard toSecond
  obtain ⟨called, contracts⟩ :=
    leadsFirst.sound.contracts_matmul standard (leadsFirst.buffers heldLeft)
      (leadsFirst.buffers heldRight) (show left.shape = [rows] ++ [inner] from leftShape) rightShape
      composes
  obtain ⟨calledOther, contractsOther⟩ :=
    leadsSecond.sound.contracts_dot standard (leadsSecond.buffers heldLeft)
      (leadsSecond.buffers heldRight) leftShape rightShape fuses
  rw [leadsFirst.array_eq sound heldLeft, leadsFirst.array_eq sound heldRight] at contracts
  rw [leadsSecond.array_eq sound heldLeft, leadsSecond.array_eq sound heldRight] at contractsOther
  exact ⟨contracts.layout.trans contractsOther.layout.symm,
    contracts.storage_eq contractsOther (called.sound.leadsTo_of_acts standard fromFirst)
      (calledOther.sound.leadsTo_of_acts standard fromSecond) finished finishedOther⟩

/-- Both products of the matrices are computed and hold the same. -/
theorem matmul_eq_dot_sample
    : ∃ storage,
        (sampleProduct (.matmul sampleColumns sampleColumn) sampleComposed).desk.workspace.finished?
            sampleComposed
          = some storage
        ∧ (sampleProduct (.dot sampleColumns sampleColumn) sampleFused).desk.workspace.finished?
            sampleFused
          = some storage := by
  obtain ⟨composes, fuses⟩ := finished_sampleProduct
  obtain ⟨storage, finished⟩ := Option.isSome_iff_exists.mp composes
  obtain ⟨other, finishedOther⟩ := Option.isSome_iff_exists.mp fuses
  obtain ⟨_, rfl⟩ :=
    matmul_eq_dot Arithmetic.ieee_standard acts_sampleMatrices
      (show sampleColumns ∈ sampleMatrices.desk.buffers by decide)
      (show sampleColumn ∈ sampleMatrices.desk.buffers by decide) rfl rfl .refl .refl
      (by decide) (by decide) (acts_sampleProduct (by decide)) (acts_sampleProduct (by decide))
      finished finishedOther
  exact ⟨_, finished, finishedOther⟩

end Workbench

end LazyTensor
