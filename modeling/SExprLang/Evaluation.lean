import SExprLang.Compilation
import SExprLang.Environment

/-!
# Evaluation: states and errors

A run transforms a `Machine`: the environment it works in, the supply of identities for what it creates and the events
it has reported. It ends in a value, in an `EvalError` or, if the depth it is granted does not suffice, not at all.
`Eval` is the monad of such runs; an error keeps the changes made before it.
-/

namespace SExprLang

/-- Why an evaluation has no value. -/
inductive EvalError where
  /-- A symbol that is not bound. -/
  | unboundSymbol (name : String) (position : Position)
  /-- The head of a list that is not an operation. -/
  | notOperation (kind : Kind) (expression : String) (position : Position)
  /-- An argument that is not there. -/
  | missingArgument
  /-- A string that is not a numeral where a number is needed. -/
  | notNumeral (value : String) (expression : String) (position : Position)
  /-- A value of a kind that cannot be taken for the kind that is needed. -/
  | wrongKind (target kind : Kind) (expression : String) (position : Position)
  /-- An error of an operation's own. -/
  | operation (message : String)
deriving DecidableEq

namespace EvalError

/-- The error in words. -/
def message : EvalError → String
  | unboundSymbol name position => "unknown symbol " ++ name ++ " at " ++ position.display
  | notOperation kind expression position =>
    "value of kind " ++ kind.name ++ " is not executable: " ++ expression ++ " at " ++ position.display
  | missingArgument => "nil expression"
  | notNumeral value expression position =>
    "cannot convert " ++ Text.quote value ++ " to number while evaluating " ++ expression ++ " at " ++ position.display
  | wrongKind target kind expression position =>
    "cannot convert " ++ kind.name ++ " to " ++ target.name ++ ": " ++ expression ++ " at " ++ position.display
  | operation message => message

/-- Where the error is, if it has a place. -/
def position? : EvalError → Option Position
  | unboundSymbol _ position
  | notOperation _ _ position
  | notNumeral _ _ position
  | wrongKind _ _ _ position => some position
  | missingArgument | operation _ => none

end EvalError

/-- The state of a run. -/
structure Machine where
  env : Environment
  /-- The region of the identities that the run gives out. -/
  region : Nat
  /-- The number of the next identity. -/
  serial : Nat
  /-- The events so far, last first. -/
  events : List Event
deriving DecidableEq

/-- Runs that give an `α`: nothing if the run does not end within the depth it is granted, else its outcome and the state
it leaves. -/
def Eval (α : Type) : Type := Machine → Option (Except EvalError α × Machine)

namespace Eval

variable {α β : Type}

/-! ## The monad of runs -/

/-- Starts a run. -/
def start (action : Eval α) (machine : Machine) : Option (Except EvalError α × Machine) := action machine

/-- The run that ends at once in an outcome. -/
def ofExcept (outcome : Except EvalError α) : Eval α := fun machine => some (outcome, machine)

/-- One run after another. An error ends both. -/
@[inline]
protected def bind (action : Eval α) (next : α → Eval β) : Eval β := fun machine =>
  match action machine with
  | none => none
  | some (.error error, machine) => some (.error error, machine)
  | some (.ok value, machine) => next value machine

instance : Monad Eval where
  pure value := ofExcept (.ok value)
  bind := Eval.bind

/-- The run that ends at once in an error. -/
def raise (error : EvalError) : Eval α := ofExcept (.error error)

/-- The run that does not end. -/
def exhausted : Eval α := fun _ => none

/-- Runs and gives the error, if there is one, as a result. -/
def attempt (action : Eval α) : Eval (Except EvalError α) := fun machine =>
  (action machine).map fun (outcome, machine) => (.ok outcome, machine)

/-! ## Reading and changing the state -/

/-- A new identity. -/
def fresh : Eval Identity := fun machine =>
  some (.ok ⟨machine.region, machine.serial⟩, { machine with serial := machine.serial + 1 })

/-- Reports events. -/
def report (events : List Event) : Eval Unit := fun machine =>
  some (.ok (), { machine with events := events.reverse ++ machine.events })

/-- What a name is bound to. -/
def lookup (name : String) : Eval (Option Value) := fun machine => some (.ok (machine.env.get? name), machine)

/-- Binds a name. -/
def define (name : String) (value : Value) : Eval Unit := fun machine =>
  some (.ok (), { machine with env := machine.env.define name value })

/-- Unbinds a name. -/
def remove (name : String) : Eval Unit := fun machine =>
  some (.ok (), { machine with env := machine.env.remove name })

/-- Runs in a copy of the environment with one more binding. The copy is given up at the end, error or not. -/
def inScope (name : String) (value : Value) (action : Eval α) : Eval α := fun machine =>
  (action { machine with env := machine.env.define name value }).map fun (outcome, after) =>
    (outcome, { after with env := machine.env })

end Eval

end SExprLang
