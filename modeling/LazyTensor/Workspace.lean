import LazyTensor.Graph.Build
import LazyTensor.Graph.Contents
import LazyTensor.Schedule

/-! Several graphs side by side. A buffer names its graph by position.
-/

namespace LazyTensor

/-- Graphs in the order in which they were made. -/
structure Workspace where
  graphs : Array Graph

namespace Workspace

/-- A workspace with one graph. -/
def start : Workspace := ⟨#[.empty 0]⟩

/-- The number of graphs. -/
def size (workspace : Workspace) : Nat := workspace.graphs.size

/-- A graph by its number; one that is not there has no nodes. -/
def graph (workspace : Workspace) (id : Nat) : Graph := workspace.graphs.getD id (.empty id)

/-- The workspace with one more graph. -/
def addGraph (workspace : Workspace) : Workspace :=
  ⟨workspace.graphs.push (.empty workspace.size)⟩

/-- Runs a step on one of the graphs. Its place is cleared meanwhile, so the graph changes
without a copy.
-/
def build {α : Type} (workspace : Workspace) (id : Nat) (step : Build α) :
    Except GraphError α × Workspace :=
  let graph := workspace.graph id
  let others := workspace.graphs.setIfInBounds id (.empty id)
  let done := step.run.run graph
  (done.1, ⟨others.setIfInBounds id done.2⟩)

/-- The storage of a buffer's node, if its contents are final. -/
def finished? (workspace : Workspace) (buffer : Buffer) : Option Storage :=
  let graph := workspace.graph buffer.graph
  if graph.isComputed buffer.node then graph.storage? buffer.node else none

/-- The workspace with the storage of a buffer's node replaced. -/
def withStorage (workspace : Workspace) (buffer : Buffer) (storage : Storage) : Workspace :=
  ⟨workspace.graphs.modify buffer.graph
    (·.updateNode buffer.node ({ · with storage := some storage }))⟩

/-- The operation of a buffer's node. -/
def operation? (workspace : Workspace) (buffer : Buffer) : Option Operation :=
  (workspace.graph buffer.graph).nodes[buffer.node]?.bind (·.producer)

/-- Whether two nodes are made by equal operations, constants compared as numbers. Data from
outside is made by none.
-/
def sameOperation (workspace : Workspace) (left right : Buffer) : Bool :=
  match workspace.operation? left, workspace.operation? right with
  | none, none => true
  | some this, some that => this.numericEq that
  | _, _ => false

end Workspace

end LazyTensor
