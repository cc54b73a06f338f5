import LazyTensor.Code.Functions
import LazyTensor.Proofs.Code.Expressions

/-! What C functions on unsigned words return. The statements are gone through with the words that
the variables have so far. A function can be called from the text behind its definition.
-/

namespace LazyTensor.Code

/-- The result of statements, with the words that its variables have. -/
def run (locals : List (List Char × UInt64)) : List Statement → Option Value
  | [] => none
  | .assign name value :: rest =>
      match value.evaluate ⟨fun name => (locals.lookup name).map .unsigned, builtin⟩ with
      | some (.unsigned word) => run ((name, word) :: locals) rest
      | _ => none
  | .yield value :: _ =>
      value.evaluate ⟨fun name => (locals.lookup name).map .unsigned, builtin⟩

/-- The result of a function for words. -/
def Definition.call (definition : Definition) (arguments : List UInt64) : Option Value :=
  if arguments.length = definition.parameters.length then
    run (definition.parameters.zip arguments) definition.body
  else
    none

/-- The words among values, if all of them are words. -/
def words? : List Value → Option (List UInt64)
  | [] => some []
  | .unsigned word :: rest => (words? rest).map (word :: ·)
  | _ => none

/-- The names of a text behind the definition of a function, with the variables that are there. -/
def Definition.environment (definition : Definition) (values : List Char → Option Value)
    : Environment where
  values := values
  functions name arguments :=
    if name = definition.name then (words? arguments).bind definition.call
    else builtin name arguments

end LazyTensor.Code
