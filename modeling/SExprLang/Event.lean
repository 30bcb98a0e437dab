import SExprLang.Expression

/-!
# Events

What a run reports about its own progress, apart from its result.
-/

namespace SExprLang

/-- A report on the progress of a run. -/
inductive Event where
  /-- A text has been scanned into so many tokens. -/
  | tokenized (tokens : Nat)
  /-- The head of a list is an operation, which is about to be performed on so many arguments. -/
  | dispatch (head : Expression) (arguments : Nat)
  /-- A batch starts on a pool of threads. -/
  | batch (rows threads : Nat) (failFast : Bool)
deriving DecidableEq

end SExprLang
