import SExprLang.Evaluation.Argument

/-!
# Standard actions

Sequences, arithmetic, assignment, loops, conditions and named functions. A function is a host object under a name; its
body runs in a copy of the caller's environment, so that it sees the caller's bindings and changes none of them.
-/

namespace SExprLang.Action.Standard

open Eval

section

variable (evaluate : Expression → Eval Value)

/-- The values of all arguments in turn, of which the last is the result. -/
def performSequence (arguments : List Expression) : Eval Value :=
  arguments.foldlM (fun _ e => evaluate e) .nil

/-- Evaluates `body` `count` times with `name` bound to `first` and the integers that follow it. -/
def repeatBody (name : String) (body : Expression) : (count : Nat) → (first : Int) → Eval Unit
  | 0, _ => pure ()
  | count + 1, first => do
    define name (.number (.ofInt first))
    let _ ← evaluate body
    repeatBody name body count (first + 1)

/-- The value of a chosen branch, nil if there is none. -/
def branchOrNil : Option Expression → Eval Value
  | some e => evaluate e
  | none => pure .nil

/-- Calls the function that `name` is bound to. -/
def call (name : String) (argument : Value) : Eval Value := do
  match ← lookup name with
  | some (.host ⟨_, .function parameter body⟩) => inScope parameter argument (evaluate body)
  | some _ => raise (.operation (name ++ " is not a function"))
  | none => raise (.operation ("no function " ++ name))

/-- Performs an action on its arguments. -/
def perform (action : Standard) (arguments : List Expression) : Eval Value :=
  match action with
  | sequence => performSequence evaluate arguments
  | sum => do return .number ((← numberArgs evaluate arguments).foldl (· + ·) .zero)
  | product => do return .number ((← numberArgs evaluate arguments).foldl (· * ·) .one)
  | nonemptyProduct => do
    if arguments.isEmpty then raise (.operation "too few args")
    return .number ((← numberArgs evaluate arguments).foldl (· * ·) .one)
  | assign => do
    let name ← stringArg evaluate arguments[0]?
    let value ← valueArg evaluate arguments[1]?
    define name value
    return .nil
  | loop => do
    let name ← stringArg evaluate arguments[0]?
    let first := (← numberArg evaluate arguments[1]?).toInt64
    let last := (← numberArg evaluate arguments[2]?).toInt64
    let body ← present arguments[3]?
    repeatBody evaluate name body (last + 1 - first).toNat first
    return .nil
  | ifNonzero => do
    let condition ← numberArg evaluate arguments[0]?
    branchOrNil evaluate (if condition.numEq .zero then arguments[2]? else arguments[1]?)
  | ifAboveOne => do
    let condition ← numberArg evaluate arguments[0]?
    valueArg evaluate (if Double.one.numLt condition then arguments[1]? else arguments[2]?)
  | defineFunction => do
    let name ← stringArg evaluate arguments[0]?
    let parameter ← stringArg evaluate arguments[1]?
    let body ← present arguments[2]?
    define name (.host ⟨← fresh, .function parameter body⟩)
    return .nil
  | callFunction => do
    let name ← stringArg evaluate arguments[0]?
    let argument ← valueArg evaluate arguments[1]?
    call evaluate name argument

end

end SExprLang.Action.Standard
