import SExprLang.Evaluation

/-!
# Arguments

Operations receive their arguments unevaluated, and an argument may be missing. The functions here evaluate an argument
and convert its value. They are parameterised by the evaluator.
-/

namespace SExprLang.Eval

/-- A value as a number: truth values count one and zero, strings must be numerals. The error names the expression that
the value comes from. -/
def asNumber (source : Expression) : Value → Except EvalError Double
  | .number value => .ok value
  | .bool value => .ok (.ofBool value)
  | .string value =>
    match Double.read? value with
    | some number => .ok number
    | none => .error (.notNumeral value source.render source.position)
  | other => .error (.wrongKind .number other.kind source.render source.position)

/-- A value as a string, which it must be. The error names the expression that the value comes from. -/
def asString (source : Expression) : Value → Except EvalError String
  | .string value => .ok value
  | other => .error (.wrongKind .string other.kind source.render source.position)

/-- A value as a list of strings, which it must be. The error names the expression that the value comes from. -/
def asStrings (source : Expression) : Value → Except EvalError (List String)
  | .strings values => .ok values
  | other => .error (.operation ("expected strings, got " ++ other.kind.name ++ " from " ++ source.render))

/-- The expression of an argument, which must be there. -/
def present : Option Expression → Eval Expression
  | some e => pure e
  | none => raise .missingArgument

section

variable (evaluate : Expression → Eval Value)

/-- The value of an argument. -/
def valueArg (slot : Option Expression) : Eval Value := do evaluate (← present slot)

/-- The value of an argument as a number. -/
def numberArg (slot : Option Expression) : Eval Double := do
  let e ← present slot
  ofExcept (asNumber e (← evaluate e))

/-- The value of an argument as a string. -/
def stringArg (slot : Option Expression) : Eval String := do
  let e ← present slot
  ofExcept (asString e (← evaluate e))

/-- The value of an argument as a list of strings. -/
def stringsArg (slot : Option Expression) : Eval (List String) := do
  let e ← present slot
  ofExcept (asStrings e (← evaluate e))

/-- The values of arguments as numbers, from left to right. -/
def numberArgs (arguments : List Expression) : Eval (List Double) :=
  arguments.mapM fun e => numberArg evaluate (some e)

/-- The values of arguments as strings, from left to right. -/
def stringArgs (arguments : List Expression) : Eval (List String) :=
  arguments.mapM fun e => stringArg evaluate (some e)

end

end SExprLang.Eval
