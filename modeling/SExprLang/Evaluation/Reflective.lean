import SExprLang.Evaluation.Argument

/-!
# Reflective actions

Errors as values, local bindings, closures, comparison and conversion of values, and the expressions of a program as
data. A closure has no environment of its own: its body runs in a copy of the environment it is called from.
-/

namespace SExprLang.Action.Reflective

open Eval

/-- What a name is bound to, nil if it is not bound. -/
def valueOrNil (name : String) : Eval Value := do return (← lookup name).getD .nil

/-- The value that an optional part of an expression makes, nil if there is none. -/
def ofPart {α : Type} (make : α → Value) : Option α → Value
  | some part => make part
  | none => .nil

section

variable (evaluate : Expression → Eval Value)

/-- Compiles and evaluates a text. A text that does not compile is an error of this action. -/
def run (text : String) : Eval Value := do
  report (compileEvents text)
  match compile text with
  | .ok e => evaluate e
  | .error error => raise (.operation error.message)

/-- Performs an action on its arguments. -/
def perform (action : Reflective) (arguments : List Expression) : Eval Value :=
  match action with
  | attempt => do
    let e ← present arguments[0]?
    match ← Eval.attempt (evaluate e) with
    | .ok value => return value
    | .error error => return .string error.message
  | fail => do raise (.operation (← stringArg evaluate arguments[0]?))
  | bindLocal => do
    let name ← stringArg evaluate arguments[0]?
    let value ← valueArg evaluate arguments[1]?
    let body ← present arguments[2]?
    inScope name value (evaluate body)
  | lambda => do
    let parameter ← stringArg evaluate arguments[0]?
    let body ← present arguments[1]?
    return .operation ⟨← fresh, .reflective (.closure parameter body)⟩
  | closure parameter body => do
    let argument ← valueArg evaluate arguments[0]?
    inScope parameter argument (evaluate body)
  | runText => do run evaluate (← stringArg evaluate arguments[0]?)
  | less => do
    let a ← numberArg evaluate arguments[0]?
    let b ← numberArg evaluate arguments[1]?
    return .bool (a.numLt b)
  | equal => do
    let a ← valueArg evaluate arguments[0]?
    let b ← valueArg evaluate arguments[1]?
    return .bool (a.eqv b)
  | number => do return .number (← numberArg evaluate arguments[0]?)
  | string => do return .string (← stringArg evaluate arguments[0]?)
  | display => do return .string (← valueArg evaluate arguments[0]?).display
  | inspect => do return .string (← valueArg evaluate arguments[0]?).inspect
  | kind => do return .string (← valueArg evaluate arguments[0]?).kind.name
  | strings => do return .strings (← stringArgs evaluate arguments)
  | hostText => do
    let text ← stringArg evaluate arguments[0]?
    return .host ⟨← fresh, .text text⟩
  | quote => return .string (Expression.renderItems arguments)
  | count => return .number (.ofInt arguments.length)
  | position => do return .string (← present arguments[0]?).position.display
  | isAtom => do return .bool (← present arguments[0]?).isAtom
  | symbolName => do return ofPart .string (← present arguments[0]?).symbolName?
  | size => do return ofPart (fun items => .number (.ofInt items.length)) (← present arguments[0]?).items?
  | exchange => do
    let name ← stringArg evaluate arguments[0]?
    let value ← valueArg evaluate arguments[1]?
    let previous ← valueOrNil name
    define name value
    return previous
  | get => do valueOrNil (← stringArg evaluate arguments[0]?)
  | unset => do
    let name ← stringArg evaluate arguments[0]?
    let previous ← valueOrNil name
    remove name
    return previous
  | isBound => do
    let name ← stringArg evaluate arguments[0]?
    return .bool (← lookup name).isSome

end

end SExprLang.Action.Reflective
