import SExprLang.Evaluation.Run
import SExprLang.Vocabulary

/-!
# Pages of demonstrations

A demonstration is a page of lines: a banner, then examples under headings.
-/

namespace SExprLang.Demo

/-- The name and version that banners show. -/
def product : String := "lispex 1.0.0"

/-- A line of `n` times the same character. -/
def rule (c : Char) (n : Nat) : String := String.ofList (List.replicate n c)

/-- The banner of a page, with an empty line below it. -/
def banner (title : String) : List String :=
  [rule '═' 39, "  " ++ product ++ " - " ++ title, rule '═' 39 ++ "\n"]

/-- The heading of an example. -/
def heading (title : String) : List String := [title, rule '─' 37]

/-- A text with spaces before it up to a width. -/
def padLeft (width : Nat) (text : String) : String :=
  String.ofList (List.replicate (width - text.length) ' ') ++ text

/-- The outcome of a text in an environment, and the environment it leaves. -/
def runIn (env : Environment) (serial : Nat) (text : String) : Except Error Value × Environment :=
  match (Machine.ofEnvironment env serial).run text with
  | some (outcome, machine) => (outcome, machine.env)
  | none => (.error (.eval (.operation "evaluation too deep")), env)

/-- The text of a value, or the message of the error in its place. -/
def outcomeText : Except Error Value → String
  | .ok value => value.display
  | .error error => error.message

end SExprLang.Demo
