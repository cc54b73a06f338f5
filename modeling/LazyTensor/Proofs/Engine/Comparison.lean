import LazyTensor.Proofs.Engine.Resumption

/-! Tasks compared. Constants are compared as numbers, and what is no number differs from itself, so
a task with such a constant differs from itself, and so does every schedule that lists it. Apart
from that, tasks of schedules are equal when they compute the same node: a node keeps what it
records, down to the sign of a zero.
-/

namespace LazyTensor

/-- The constant of a task, if it has one, is a number. -/
def Task.Numeric (task : Task) : Prop :=
  ∀ bits, task.operation.argument = some (.value bits) →
    Float.Format.binary64.isNaN bits.toNat = false

/-- Two tasks have one target, the same node under the same view, and record the same kind, the same
sources under the same views and the same argument, a constant down to its bits.
-/
structure Task.Alike (left right : Task) : Prop where
  graph : left.target.graph = right.target.graph
  node : left.target.node = right.target.node
  layout : left.target.layout = right.target.layout
  kind : left.kind = right.kind
  sources : left.operation.sources = right.operation.sources
  argument : left.operation.argument = right.operation.argument

-----------------------------------------------------------------------------------------
-- A task against itself
-----------------------------------------------------------------------------------------

/-- A list agrees with itself, entry by entry, if each entry agrees with itself. -/
theorem all_zip_self {α : Type} (relation : α → α → Bool) (list : List α)
    : ((list.zip list).all fun (left, right) => relation left right)
      = list.all fun entry => relation entry entry := by
  rw [List.zip, List.zipWith_self, List.all_map]
  rfl

/-- A pattern is equal to itself if it stands for a number. -/
theorem Float.Format.numericEq_self (format : Float.Format) (bits : Nat)
    : format.numericEq bits bits = !format.isNaN bits := by
  simp [numericEq]

theorem Buffer.same_self (buffer : Buffer) : buffer.same buffer = true := by
  simp [same]

/-- A task is equal to itself if its constant is a number. -/
theorem Task.numericEq_self (task : Task) : task.numericEq task = true ↔ task.Numeric := by
  have sources : (task.sources.all fun source => source.same source) = true :=
    List.all_eq_true.mpr fun source _ => source.same_self
  rw [numericEq, Operation.numericEq, Buffer.same_self, all_zip_self Buffer.same, sources]
  cases made : task.operation.argument with
  | none => simp [Numeric, made]
  | some argument =>
      cases argument with
      | value bits => simp [Numeric, made, Argument.numericEq, Float.Format.numericEq_self]
      | seed | axis | order | padding => simp [Numeric, made, Argument.numericEq]

/-- A schedule is equal to itself if the constants of all its tasks are numbers. -/
theorem Schedule.numericEq_self (schedule : Schedule)
    : schedule.numericEq schedule = true ↔ ∀ task ∈ schedule, task.Numeric := by
  rw [numericEq, all_zip_self Task.numericEq, beq_self_eq_true, Bool.true_and,
    List.all_eq_true]
  exact forall₂_congr fun task _ => task.numericEq_self

-----------------------------------------------------------------------------------------
-- Tasks of one session
-----------------------------------------------------------------------------------------

/-- Equal tasks have the same target. -/
theorem Task.target_of_numericEq {left right : Task} (equal : left.numericEq right = true)
    : left.target.graph = right.target.graph ∧ left.target.node = right.target.node := by
  simp only [numericEq, Buffer.same, Bool.and_eq_true, beq_iff_eq] at equal
  obtain ⟨⟨⟨_, ⟨graph, node⟩, _⟩, _⟩, _⟩ := equal
  exact ⟨graph, node⟩

/-- A node records one task. -/
theorem Task.Recorded.eq_of_target {workspace : Workspace} {left right : Task}
    (recorded : left.Recorded workspace) (other : right.Recorded workspace)
    (graph : left.target.graph = right.target.graph) (node : left.target.node = right.target.node)
    : left = right := by
  obtain ⟨leftNode, leftOperation, found, made, same⟩ := recorded
  obtain ⟨rightNode, rightOperation, found', made', same'⟩ := other
  rw [graph, node] at found same
  obtain rfl := Option.some.inj (found.symm.trans found')
  obtain rfl := Option.some.inj (made.symm.trans made')
  exact same.trans same'.symm

/-- Recorded tasks are equal if they are alike and their constant is a number. -/
theorem Task.Recorded.numericEq_iff {workspace : Workspace} {left right : Task}
    (recorded : left.Recorded workspace) (other : right.Recorded workspace)
    : left.numericEq right = true ↔ left.Alike right ∧ left.Numeric := by
  constructor
  · intro equal
    obtain ⟨graph, node⟩ := Task.target_of_numericEq equal
    obtain rfl := recorded.eq_of_target other graph node
    exact ⟨⟨rfl, rfl, rfl, rfl, rfl, rfl⟩, left.numericEq_self.mp equal⟩
  · intro given
    obtain ⟨alike, numeric⟩ := given
    obtain rfl := recorded.eq_of_target other alike.graph alike.node
    exact left.numericEq_self.mpr numeric

/-- A schedule that is made again is the same while nothing is computed, whatever else is done. -/
theorem Graph.ComputedBy.schedule_again {old new : Graph} (idle : old.ComputedBy ∅ new)
    (later : old.Extends new) (wf : old.WellFormed) (newWf : new.WellFormed) {root : Nat}
    (inside : root < old.size) {schedule : Schedule} (made : old.schedule root = .ok schedule)
    : new.schedule root = .ok schedule := by
  have all : schedule.without ∅ = schedule := by simp [Schedule.without]
  have closed : schedule.Closed old ∅ := ⟨by simp, by simp⟩
  rw [idle.schedule_eq later wf newWf inside made closed, all]

namespace Desk

variable {desk later : Desk}

/-- A schedule that is made twice, with nothing computed in between, is equal to itself if the
constants of its tasks are numbers. Two tasks of schedules, made at any times on one desk, are equal
if they are alike and their constant is a number.
-/
theorem Reachable.schedules_compare (reached : desk.Reachable)
    (steps : Relation.ReflTransGen Desk.Step desk later)
    : (∀ buffer ∈ desk.buffers,
        (desk.workspace.graph buffer.graph).ComputedBy ∅ (later.workspace.graph buffer.graph) →
          ∃ schedule again,
            (desk.workspace.graph buffer.graph).schedule buffer.node = .ok schedule
            ∧ (later.workspace.graph buffer.graph).schedule buffer.node = .ok again
            ∧ (schedule.numericEq again = true ↔ ∀ task ∈ schedule, task.Numeric))
      ∧ ∀ left right,
          later.Lists left → later.Lists right →
            (left.numericEq right = true ↔ left.Alike right ∧ left.Numeric) := by
  constructor
  · intro buffer held idle
    obtain ⟨after, extends_⟩ := reached.of_steps steps
    obtain ⟨_, _, node, found, _⟩ := reached.wellFormed.buffers buffer held
    have inside := (Array.getElem?_eq_some_iff.mp found).1
    have wf := (reached.wellFormed.workspace buffer.graph).2
    have laterWf := (after.wellFormed.workspace buffer.graph).2
    obtain ⟨schedule, made, _⟩ := wf.schedule_ok inside
    have again := idle.schedule_again (extends_ buffer.graph) wf laterWf inside made
    exact ⟨schedule, schedule, made, again, schedule.numericEq_self⟩
  · intro left right listed other
    exact listed.recorded.2.numericEq_iff other.recorded.2

/-- A constant that is no number. -/
def sampleVoid : Buffer := ⟨0, 0, .float32, .dense [2]⟩

/-- Negative zeros. -/
def sampleMinusZeros : Buffer := { sampleVoid with node := 1 }

/-- The call that makes the constant that is no number, and the one that makes the zeros. -/
def sampleConstantCalls : List BuildCall :=
  [.fill 0 .constant [2] (some (.value 0x7FF8000000000000)) .float32,
    .fill 0 .constant [2] (some (.value 0x8000000000000000)) .float32]

/-- A constant that is no number, and negative zeros. -/
def sampleConstants : Desk := sampleConstantCalls.foldl call start

theorem reachable_sampleConstants : Reachable sampleConstants := by
  have first : Reachable (start.call sampleConstantCalls[0]) :=
    .step .start (.call _ _ (by decide) (by decide))
  exact .step first (.call _ sampleConstantCalls[1] (by decide) (by decide))

/-- The task of a sample constant. -/
def constantTask (target : Buffer) (bits : UInt64) : Task :=
  ⟨⟨.fill .constant, [], some (.value bits)⟩, target, []⟩

/-- The schedule of a constant that is no number differs from itself. -/
theorem schedule_sampleVoid
    : Reachable sampleConstants
      ∧ sampleVoid ∈ sampleConstants.buffers
      ∧ ∃ schedule,
          (sampleConstants.workspace.graph 0).schedule 0 = .ok schedule
          ∧ schedule.numericEq schedule = false := by
  refine ⟨reachable_sampleConstants, by decide, [constantTask sampleVoid 0x7FF8000000000000], rfl,
    ?_⟩
  decide

/-- The schedule of the negative zeros is equal to the one that is made after memory was taken for
them, and so is its task.
-/
theorem schedules_compare_sample
    : let later := sampleConstants.change 0 (Graph.allocate 1)
      sampleMinusZeros ∈ sampleConstants.buffers
      ∧ (sampleConstants.workspace.graph 0).ComputedBy ∅ (later.workspace.graph 0)
      ∧ (∃ schedule again : Schedule,
          (sampleConstants.workspace.graph 0).schedule 1 = .ok schedule
          ∧ (later.workspace.graph 0).schedule 1 = .ok again
          ∧ schedule.numericEq again = true)
      ∧ later.Lists (constantTask sampleMinusZeros 0x8000000000000000)
      ∧ (constantTask sampleMinusZeros 0x8000000000000000).numericEq
            (constantTask sampleMinusZeros 0x8000000000000000)
          = true := by
  intro later
  let zeros := constantTask sampleMinusZeros 0x8000000000000000
  have steps : Relation.ReflTransGen Desk.Step sampleConstants later :=
    .single (.allocate sampleConstants 0 1)
  have held : sampleMinusZeros ∈ sampleConstants.buffers := by decide
  have idle
      : (sampleConstants.workspace.graph 0).ComputedBy ∅ (later.workspace.graph 0) := by
    decide
  have numeric : zeros.Numeric := by
    rintro bits made
    cases made
    decide
  obtain ⟨rescheduled, compared⟩ := reachable_sampleConstants.schedules_compare steps
  obtain ⟨schedule, again, made, madeAgain, equal⟩ := rescheduled sampleMinusZeros held idle
  obtain rfl : [zeros] = schedule := Except.ok.inj ((Eq.refl _).trans made)
  have listed : later.Lists zeros :=
    .later (.made reachable_sampleConstants sampleMinusZeros held [zeros] made zeros (by simp))
      (.allocate sampleConstants 0 1)
  refine ⟨held, idle, ⟨[zeros], again, made, madeAgain, equal.mpr (by simpa using numeric)⟩, listed,
    ?_⟩
  exact (compared zeros zeros listed listed).mpr ⟨⟨rfl, rfl, rfl, rfl, rfl, rfl⟩, numeric⟩

end Desk

end LazyTensor
