import LazyTensor.Graph.Basic

/-! Schedules: what has to be computed for a buffer, sources first. The traversal keeps an
explicit stack. A node is entered before its sources and finished after them, and what is
computed already is neither listed nor looked through.
-/

namespace LazyTensor

/-- One array to compute: its operation, its node and the sources as the operation saw them. -/
structure Task where
  operation : Operation
  target : Buffer
  sources : List Buffer
deriving DecidableEq, Repr

namespace Task

/-- The kind of the operation. -/
def kind (task : Task) : OpKind := task.operation.kind

/-- The task in a message. -/
def text (task : Task) : String :=
  let sources := ", ".intercalate (task.sources.map Buffer.text)
  let shown := task.target.text ++ " <- " ++ task.kind.label ++ "(" ++ sources ++ ")"
  match task.operation.argument with
  | none => shown
  | some argument => shown ++ " " ++ argument.text

/-- Equality of tasks with constants compared as numbers. -/
def numericEq (left right : Task) : Bool :=
  left.operation.numericEq right.operation && left.target.same right.target
    && left.sources.length == right.sources.length
    && (left.sources.zip right.sources).all fun (this, that) => this.same that

end Task

/-- Tasks in the order in which they run. -/
abbrev Schedule := List Task

/-- Equality of schedules, task by task. -/
def Schedule.numericEq (left right : Schedule) : Bool :=
  left.length == right.length && (left.zip right).all fun (this, that) => this.numericEq that

/-- Why a schedule could not be made. -/
inductive ScheduleError where
  | missingOperation (node : Nat)
deriving DecidableEq, Repr

/-- The text of an error. -/
def ScheduleError.message : ScheduleError → String
  | missingOperation node =>
      nodeName node ++ " is not realized and has no producing operation"

/-- A node on the stack, to be entered or to be finished. -/
structure Visit where
  node : Nat
  entered : Bool
deriving DecidableEq, Repr

/-- The state of a traversal. Tasks are listed newest first. -/
structure Traversal where
  stack : List Visit
  visited : Array Bool
  tasks : List Task
deriving DecidableEq, Repr

namespace Traversal

/-- Whether a node has been finished or passed over. Nothing is behind the last node. -/
def isVisited (traversal : Traversal) (node : Nat) : Bool :=
  traversal.visited.getD node true

/-- The traversal with a node marked as visited. -/
def mark (traversal : Traversal) (node : Nat) : Traversal :=
  { traversal with visited := traversal.visited.setIfInBounds node true }

/-- Takes the top of the stack: passes it over when it was visited or is computed, lists it when
its sources are done, and otherwise puts those of its sources on the stack that were not
visited, the first on top.
-/
def advance (graph : Graph) (visit : Visit) (traversal : Traversal) :
    Except ScheduleError Traversal :=
  if traversal.isVisited visit.node then
    .ok traversal
  else
    match graph.nodes[visit.node]? with
    | none => .ok traversal
    | some node =>
        if node.computed then
          .ok (traversal.mark visit.node)
        else
          match node.producer with
          | none => .error (.missingOperation visit.node)
          | some operation =>
              if visit.entered then
                let task : Task := {
                  operation
                  target := ⟨graph.id, visit.node, node.dtype, node.layout⟩
                  sources := operation.sources.map graph.sourceView
                }
                let marked := traversal.mark visit.node
                .ok { marked with tasks := task :: marked.tasks }
              else
                let fresh := operation.sources.filter (!traversal.isVisited ·.node)
                .ok { traversal with
                  stack := fresh.map (⟨·.node, false⟩) ++ ⟨visit.node, true⟩ :: traversal.stack }

/-- Runs a traversal until its stack is empty, for at most `fuel` visits. -/
def run (graph : Graph) : (fuel : Nat) → Traversal → Except ScheduleError Traversal
  | 0, traversal => .ok traversal
  | fuel + 1, traversal =>
      match traversal.stack with
      | [] => .ok traversal
      | visit :: rest => do
          let next ← advance graph visit { traversal with stack := rest }
          run graph fuel next

end Traversal

namespace Graph

/-- The number of sources that the nodes record, all together. -/
def edgeCount (graph : Graph) : Nat :=
  graph.nodes.toList.foldr (fun node count => node.sourceCount + count) 0

/-- Everything that has to be computed for a node, each array once and after its sources. Every
node is entered once, so the stack is empty after as many visits as there are nodes, recorded
sources and one.
-/
def schedule (graph : Graph) (node : Nat) : Except ScheduleError Schedule := do
  let start : Traversal := ⟨[⟨node, false⟩], Array.replicate graph.size false, []⟩
  let done ← Traversal.run graph (1 + graph.size + graph.edgeCount) start
  return done.tasks.reverse

end Graph

end LazyTensor
