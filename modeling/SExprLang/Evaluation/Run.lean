import SExprLang.Diagnostic
import SExprLang.Evaluation.Evaluate

/-!
# Programs

Compiling and evaluating in one step.
-/

namespace SExprLang

namespace Machine

/-- A machine for work in an environment, whose identities start at `serial`. -/
def ofEnvironment (env : Environment) (serial : Nat) : Machine := ⟨env, 0, serial, []⟩

/-- Adds events to those reported so far. -/
def report (machine : Machine) (events : List Event) : Machine :=
  { machine with events := events.reverse ++ machine.events }

/-- Evaluates an expression: nothing if the depth that it is granted does not suffice, else the outcome and the state
that is left. -/
def evaluate (machine : Machine) (e : Expression) (depth : Nat := evaluationDepth) :
    Option (Except EvalError Value × Machine) :=
  (SExprLang.evaluate depth e).start machine

/-- Compiles and evaluates a text. -/
def run (machine : Machine) (text : String) : Option (Except Error Value × Machine) :=
  let machine := machine.report (compileEvents text)
  match compile text with
  | .ok e => (machine.evaluate e).map fun (outcome, after) => (outcome.mapError .eval, after)
  | .error error => some (.error (.compile error), machine)

end Machine

end SExprLang
