import SExprLang.Evaluation.Argument

/-!
# Feature actions

Vectors of numbers from tests on strings. A conjunction stops at the first test that fails, so later ones need not even
have a value.
-/

namespace SExprLang.Action.Feature

open Eval

section

variable (evaluate : Expression → Eval Value)

/-- Whether all arguments are true, up to the first false one. -/
def allTrueArgs : List Expression → Eval Bool
  | [] => pure true
  | e :: rest => do
    match ← evaluate e with
    | .bool true => allTrueArgs rest
    | .bool false => pure false
    | other => raise (.operation ("and: expected bool, got " ++ other.kind.name))

/-- Whether all arguments are nonzero as numbers, up to the first zero. -/
def allNonzeroArgs : List Expression → Eval Bool
  | [] => pure true
  | e :: rest => do
    if (← numberArg evaluate (some e)).numEq .zero then pure false else allNonzeroArgs rest

/-- Performs an action on its arguments. -/
def perform (action : Feature) (arguments : List Expression) : Eval Value :=
  match action with
  | vector => do return .numbers (← numberArgs evaluate arguments)
  | allTrue => do return .bool (← allTrueArgs evaluate arguments)
  | allNonzero => do return .bool (← allNonzeroArgs evaluate arguments)
  | member => do
    let value ← stringArg evaluate arguments[0]?
    let values ← stringsArg evaluate arguments[1]?
    return .bool (values.contains value)
  | assignStrings => do
    let name ← stringArg evaluate arguments[0]?
    let values ← stringArgs evaluate (arguments.drop 1)
    define name (.strings values)
    return .nil

end

end SExprLang.Action.Feature
