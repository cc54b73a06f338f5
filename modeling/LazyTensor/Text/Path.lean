/-! Paths as text. Joining puts one separator between two parts. Two paths name the same place
when they agree part by part; repeated and trailing separators and inner dots do not count. A
loader of libraries replaces some words behind a dollar sign, so such a path is not its own.
-/

namespace LazyTensor.Text

/-- A path below another one. An absolute path is taken from the top. -/
def joinPath (base name : String) : String :=
  if name.startsWith "/" then name
  else if base.isEmpty || base.endsWith "/" then base ++ name
  else base ++ "/" ++ name

/-- The parts of a text around a character. -/
def parts (separator : Char) (text : String) : List String :=
  (text.toList.splitOn separator).map String.ofList

/-- The names on a path. A dot names nothing. -/
def pathNames (path : String) : List String :=
  (parts '/' path).filter fun piece => piece ≠ "" ∧ piece ≠ "."

/-- The names on a path, with a dot behind them if the path ends in one. Such a path asks for a
directory that is there.
-/
def pathSteps (path : String) : List String :=
  match ((parts '/' path).filter (· ≠ "")).getLast? with
  | some "." => pathNames path ++ ["."]
  | _ => pathNames path

/-- The parts of a path. An absolute path starts with the separator, and a dot counts only in
front.
-/
def pathParts (path : String) : List String :=
  let root := if path.startsWith "/" then ["/"] else []
  let dot := if (parts '/' path).head? = some "." then ["."] else []
  root ++ dot ++ pathNames path

/-- Whether two paths agree part by part. -/
def samePath (left right : String) : Bool := pathParts left == pathParts right

/-- The words that a loader replaces by places of its own when they follow a dollar sign. -/
def loaderWords : List String := ["ORIGIN", "PLATFORM", "LIB"]

/-- Whether a text starts with a loader's word, in braces or as a whole word. -/
def startsWithLoaderWord (text : String) : Bool :=
  let word := text.toList.takeWhile fun char => char.isAlphanum || char == '_'
  loaderWords.any fun name =>
    word == name.toList || text.startsWith ("\x7b" ++ name ++ "\x7d")

/-- Whether a loader takes a path for another one. -/
def isReplaced (path : String) : Bool := (parts '$' path).tail.any startsWithLoaderWord

end LazyTensor.Text
