/-! Lines of a kernel body. A writer indents by the number of open loops and numbers the loop
counters in the order in which they are opened.
-/

namespace LazyTensor.Kernel

/-- The name of a loop counter. -/
def counterName (counter : Nat) : String := "ridx" ++ counter.repr

/-- The lines written so far, newest first, with the depth and the next counter. -/
structure Writer where
  written : List String
  depth : Nat
  next : Nat
deriving DecidableEq, Repr

namespace Writer

/-- A writer inside the braces of a function. -/
def start : Writer := ⟨[], 1, 0⟩

/-- The lines, oldest first. -/
def lines (writer : Writer) : List String := writer.written.reverse

/-- The blanks in front of a line at some depth. -/
def indent (depth : Nat) : String := String.ofList (List.replicate (2 * depth) ' ')

/-- Writes one statement. -/
def line (writer : Writer) (statement : String) : Writer :=
  { writer with written := (indent writer.depth ++ statement) :: writer.written }

/-- The head of a loop that counts from zero to below `bound`. -/
def loopHead (counter bound : Nat) : String :=
  let name := counterName counter
  "for (long long " ++ name ++ " = 0; " ++ name ++ " < " ++ bound.repr ++ "; " ++ name
    ++ "++) \x7b"

/-- Opens a loop over a given counter. -/
def enter (writer : Writer) (counter bound : Nat) : Writer :=
  let headed := writer.line (loopHead counter bound)
  { headed with depth := headed.depth + 1, next := counter + 1 }

/-- Opens a loop over the next counter. -/
def openLoop (writer : Writer) (bound : Nat) : Writer := writer.enter writer.next bound

/-- Opens a loop for each dimension, outermost first. -/
def openLoops (writer : Writer) (shape : List Nat) : Writer := shape.foldl openLoop writer

/-- Closes the innermost loop. -/
def closeLoop (writer : Writer) : Writer :=
  { writer with depth := writer.depth - 1 }.line "\x7d"

/-- Closes as many loops. -/
def closeLoops (writer : Writer) : Nat → Writer
  | 0 => writer
  | count + 1 => writer.closeLoop.closeLoops count

end Writer

end LazyTensor.Kernel
