import SExprLang.Evaluation.Argument

/-!
# Query actions

The text of database queries, put together from the texts of the arguments.
-/

namespace SExprLang.Action.Query

open Eval

/-- The query for the given columns, one on a line. -/
def selectText (table label : String) (columns : List String) : String :=
  "select\n" ++ ",\n".intercalate (columns.map ("  " ++ ·)) ++ "\nfrom\n  " ++ table ++ " as " ++ label ++ ";"

/-- The condition that all the given conditions hold. -/
def conjunctionText (conditions : List String) : String := " and ".intercalate conditions

/-- The condition that a column has one of the given values, each between single quotes. -/
def membershipText (column : String) (values : List String) : String :=
  "(" ++ column ++ " in (" ++ ", ".intercalate (values.map fun value => "'" ++ value ++ "'") ++ "))"

section

variable (evaluate : Expression → Eval Value)

/-- Performs an action on its arguments. -/
def perform (action : Query) (arguments : List Expression) : Eval Value :=
  match action with
  | select table label => do return .string (selectText table label (← stringArgs evaluate arguments))
  | conjunction => do return .string (conjunctionText (← stringArgs evaluate arguments))
  | membership => do
    let column ← stringArg evaluate arguments[0]?
    let values ← stringsArg evaluate arguments[1]?
    return .string (membershipText column values)

end

end SExprLang.Action.Query
