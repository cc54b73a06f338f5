import LazyTensor.Proofs.Workspace.Reachable

/-! What calls of builders append. A call that fails leaves every graph as it was, whatever buffers
it is given. One that succeeds appends its nodes behind all others of its receiver's graph and
answers with a buffer of the last of them; another view of a node is a buffer of that node.
-/

namespace LazyTensor

-----------------------------------------------------------------------------------------
-- One graph
-----------------------------------------------------------------------------------------

/-- A graph with so many nodes more, behind those that it had. Those that wait for an engine have no
memory yet.
-/
structure Graph.Appends (old : Graph) (count : Nat) (new : Graph) : Prop where
  id : new.id = old.id
  nodes : ∃ added : Array Node, added.size = count ∧ new.nodes = old.nodes ++ added
  blank
    : ∀ (position : Nat) (node : Node), old.size ≤ position →
        new.nodes[position]? = some node → node.computed = false → node.storage = none

namespace Graph.Appends

theorem refl (graph : Graph) : graph.Appends 0 graph where
  id := rfl
  nodes := ⟨#[], rfl, by simp⟩
  blank := by
    intro position node behind found
    rw [Array.getElem?_eq_none behind] at found
    cases found

theorem push (graph : Graph) {node : Node} (blank : node.computed = false → node.storage = none)
    : graph.Appends 1 (graph.push node) where
  id := rfl
  nodes := ⟨#[node], rfl, Array.push_eq_append⟩
  blank := by
    intro position other behind found
    rw [Graph.push, Array.getElem?_push] at found
    split at found
    · exact Option.some.inj found ▸ blank
    · rw [Array.getElem?_eq_none behind] at found
      cases found

theorem trans {first second third : Graph} {count more : Nat} (left : first.Appends count second)
    (right : second.Appends more third)
    : first.Appends (count + more) third := by
  obtain ⟨added, size, nodes⟩ := left.nodes
  obtain ⟨others, otherSize, otherNodes⟩ := right.nodes
  refine ⟨right.id.trans left.id, ⟨added ++ others, ?_, ?_⟩, ?_⟩
  · rw [Array.size_append, size, otherSize]
  · rw [otherNodes, nodes, Array.append_assoc]
  · intro position node behind found
    rcases Nat.lt_or_ge position second.size with earlier | later
    · rw [otherNodes, Array.getElem?_append_left earlier] at found
      exact left.blank position node behind found
    · exact right.blank position node later found

theorem size_eq {old new : Graph} {count : Nat} (appends : old.Appends count new)
    : new.size = old.size + count := by
  obtain ⟨added, size, nodes⟩ := appends.nodes
  rw [Graph.size, Graph.size, nodes, Array.size_append, size]

end Graph.Appends

/-- So many nodes were appended to a graph, and the answer is a buffer of a node of it. -/
structure Build.Answers (graph : Graph) (count position : Nat) (result : Buffer) (final : Graph)
    : Prop where
  appends : graph.Appends count final
  graph : result.graph = graph.id
  node : result.node = position

theorem Build.Records.answers {graph final : Graph} {operation : Operation} {dtype : DType}
    {layout : Layout} {result : Buffer}
    (recorded : Build.Records graph operation dtype layout result final)
    : Build.Answers graph 1 graph.size result final := by
  obtain ⟨_, rfl, rfl⟩ := recorded
  exact ⟨.push graph fun _ => rfl, rfl, rfl⟩

namespace BuildCall

/-- How many nodes a call appends. -/
def appends : BuildCall → Nat
  | reshape .. | expand .. => 0
  | matmul .. => 2
  | _ => 1

/-- The node that a call answers with, on a graph of a size: the last one that it appends, or the
node of its receiver.
-/
def answer (size : Nat) : BuildCall → Nat
  | reshape buffer _ | expand buffer _ => buffer.node
  | call => size + call.appends - 1

/-- A call leaves its graph as it was, or appends its nodes and answers with the last of them. -/
theorem step_answers (call : BuildCall) (graph : Graph) (own : call.graph = graph.id)
    : Ends call.step graph (Build.Answers graph call.appends (call.answer graph.size))
        (fun _ final => final = graph) := by
  have unchanged (cause : GraphError) (final : Graph) (same : final = graph) : final = graph := same
  have viewed (buffer : Buffer) (change : Layout → Except Layout.Error Layout)
      (own : buffer.graph = graph.id)
      : Ends (buffer.view change) graph (Build.Answers graph 0 buffer.node)
          (fun _ final => final = graph) := by
    refine (buffer.view_ends change graph).mono ?_ unchanged
    intro result final outcome
    obtain ⟨rfl, layout, _, rfl⟩ := outcome
    exact ⟨.refl final, own, rfl⟩
  cases call with
  | fill _ op shape argument dtype =>
      exact (Build.fill_ends op shape argument dtype graph).mono
        (fun _ _ outcome => outcome.2.answers) unchanged
  | ofArray _ dtype data shape =>
      refine (Build.ofArray_ends dtype data shape graph).mono ?_ unchanged
      intro result final outcome
      obtain ⟨_, _, rfl, rfl⟩ := outcome
      exact ⟨.push graph (nomatch ·), rfl, rfl⟩
  | elementwise left kind others =>
      refine (left.elementwise_ends kind others graph).mono ?_ unchanged
      intro result final outcome
      obtain ⟨_, _, _, recorded⟩ := outcome
      exact recorded.answers
  | reshape buffer shape => exact viewed buffer (·.reshape shape) own
  | expand buffer shape => exact viewed buffer (·.expand shape) own
  | permute buffer order =>
      exact (buffer.permute_ends order graph).mono (fun _ _ outcome => outcome.2.answers) unchanged
  | pad buffer padding =>
      refine (buffer.pad_ends padding graph).mono ?_ unchanged
      intro result final outcome
      obtain ⟨_, _, recorded⟩ := outcome
      exact recorded.answers
  | reduce buffer op axis =>
      exact (buffer.reduce_ends op axis graph).mono (fun _ _ outcome => outcome.2.answers) unchanged
  | matmul left right =>
      refine (left.matmul_ends right graph).mono ?_ unchanged
      intro result final outcome
      obtain ⟨_, _, _, _, _, product, middle, _, _, multiplied, summed⟩ := outcome
      have first := multiplied.answers
      have second := summed.answers
      have last : middle.size = graph.size + 1 := first.appends.size_eq
      exact ⟨first.appends.trans second.appends, second.graph.trans first.appends.id,
        second.node.trans last⟩
  | dot left right =>
      refine (left.dot_ends right graph).mono ?_ unchanged
      intro result final outcome
      obtain ⟨_, _, _, _, recorded⟩ := outcome
      exact recorded.answers

end BuildCall

-----------------------------------------------------------------------------------------
-- Workspaces
-----------------------------------------------------------------------------------------

namespace Workspace

/-- So many nodes were appended to one graph, and the others are as they were. -/
structure Appends (old : Workspace) (id count : Nat) (new : Workspace) : Prop where
  size : new.size = old.size
  graph : (old.graph id).Appends count (new.graph id)
  others : ∀ other, other ≠ id → new.graph other = old.graph other

variable {workspace : Workspace} {id : Nat}

theorem size_build {α : Type} (workspace : Workspace) (id : Nat) (step : Build α)
    : (workspace.build id step).2.size = workspace.size := by
  simp only [build, size, Array.size_setIfInBounds]

/-- A step that leaves its graph as it was leaves the workspace so. -/
theorem build_unchanged {α : Type} {step : Build α}
    (same : (outcome step (workspace.graph id)).2 = workspace.graph id)
    : (workspace.build id step).2 = workspace := by
  have graphs : (workspace.build id step).2.graphs = workspace.graphs := by
    change (workspace.graphs.setIfInBounds id (.empty id)).setIfInBounds id
      (outcome step (workspace.graph id)).2 = workspace.graphs
    rw [same]
    refine Array.ext_getElem? fun other => ?_
    simp only [Array.getElem?_setIfInBounds, Array.size_setIfInBounds]
    by_cases own : id = other
    · subst own
      by_cases inside : id < workspace.graphs.size
      · simp [graph, inside]
      · simp [inside]
    · simp [own]
  exact congrArg Workspace.mk graphs

/-- A step that gives a value and leaves its graph as it was does so in the workspace. -/
theorem build_of_outcome {α : Type} {step : Build α} {value : α}
    (given : outcome step (workspace.graph id) = (.ok value, workspace.graph id))
    : workspace.build id step = (.ok value, workspace) :=
  Prod.ext ((build_fst workspace id step).trans (congrArg Prod.fst given))
    (build_unchanged (congrArg Prod.snd given))

/-- A step that appends nodes to its graph does so in the workspace. -/
theorem build_appends {α : Type} {step : Build α} {count : Nat} (present : id < workspace.size)
    (appends : (workspace.graph id).Appends count (outcome step (workspace.graph id)).2)
    : workspace.Appends id count (workspace.build id step).2 where
  size := size_build workspace id step
  graph := by
    rw [graph_build, if_pos ⟨rfl, present⟩]
    exact appends
  others := by
    intro other different
    rw [graph_build, if_neg fun both => different both.1]

end Workspace

/-- The nodes of a call were appended to its graph, and the answer is a buffer of the last of them,
or of the receiver's node.
-/
structure BuildCall.Appended (call : BuildCall) (workspace : Workspace) (buffer : Buffer)
    (final : Workspace)
    : Prop where
  appends : workspace.Appends call.graph call.appends final
  graph : buffer.graph = call.graph
  node : buffer.node = call.answer (workspace.graph call.graph).size

/-- A call on a graph that is there appends its nodes or leaves all graphs as they were. -/
theorem BuildCall.build_ends {workspace : Workspace} (wf : workspace.WellFormed) (call : BuildCall)
    (present : call.graph < workspace.size)
    : match workspace.build call.graph call.step with
      | (.ok buffer, final) => call.Appended workspace buffer final
      | (.error _, final) => final = workspace := by
  have own := (wf call.graph).1
  have ends := call.step_answers (workspace.graph call.graph) own.symm
  have result := workspace.build_fst call.graph call.step
  rcases built : workspace.build call.graph call.step with ⟨cause | buffer, final⟩
  · have same := ends.of_error (result.symm.trans (congrArg Prod.fst built))
    exact (congrArg Prod.snd built).symm.trans (Workspace.build_unchanged same)
  · have answers := ends.of_ok (result.symm.trans (congrArg Prod.fst built))
    have appends := Workspace.build_appends present answers.appends
    rw [built] at appends
    exact ⟨appends, answers.graph.trans own, answers.node⟩

end LazyTensor
