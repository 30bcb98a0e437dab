import SExprLang.Evaluation.Feature
import SExprLang.Evaluation.Query
import SExprLang.Evaluation.Reflective
import SExprLang.Evaluation.Standard

/-!
# The evaluator

Numbers and strings stand for themselves, symbols for what they are bound to, and the empty list for nil. Any other
list evaluates its head, which must give an operation, and has that operation perform its action on the rest of the list
as it is written. `evaluate` is granted a depth of nested evaluations and does not end if that is not enough.
-/

namespace SExprLang

/-- Performs an action on its arguments. -/
def Action.perform (evaluate : Expression → Eval Value) (action : Action) (arguments : List Expression) : Eval Value :=
  match action with
  | standard action => action.perform evaluate arguments
  | feature action => action.perform evaluate arguments
  | query action => action.perform evaluate arguments
  | reflective action => action.perform evaluate arguments

/-- Evaluates an expression with at most `depth` evaluations inside each other. -/
def evaluate : (depth : Nat) → Expression → Eval Value
  | 0, _ => Eval.exhausted
  | _ + 1, .number value _ _ => pure (.number value)
  | _ + 1, .string value _ => pure (.string value)
  | _ + 1, .symbol name position => do
    match ← Eval.lookup name with
    | some value => return value
    | none => Eval.raise (.unboundSymbol name position)
  | _ + 1, .list [] _ => pure .nil
  | depth + 1, .list (head :: arguments) _ => do
    match ← evaluate depth head with
    | .operation operation =>
      Eval.report [.dispatch head arguments.length]
      operation.action.perform (evaluate depth) arguments
    | other => Eval.raise (.notOperation other.kind head.render head.position)

/-- The depth that programs are granted. -/
def evaluationDepth : Nat := 1000000

end SExprLang
