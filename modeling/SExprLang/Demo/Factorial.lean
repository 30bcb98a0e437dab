import SExprLang.Demo.Page

/-!
# Factorials in two ways

The factorial by a loop that multiplies in place and by a function that calls itself, and what errors look like.
-/

namespace SExprLang.Demo.Factorial

/-- Multiplies the numbers up to `N` in a loop. -/
def looped : String := "
(prog
    (set \"x\" 1)
    (loop \"i\" 1 N
        (set \"x\" (* x i)))
    x)
"

/-- Defines the factorial as a function and calls it for `N`. -/
def recursive : String := "
(prog
    (def \"F\" \"x\" (if_gt_one x
        (* x (call \"F\" (+ x -1)))
        1))
    (call \"F\" N))
"

/-- Programs that fail, one at each stage that can. -/
def failing : List String := ["(prog (call \"G\" 1))", "(prog (x", "(\"text\" 1)"]

/-- The environment with `N` bound to a number. -/
def environmentFor (n : Int) : Environment := Vocabulary.factorial.environment.define "N" (.number (.ofInt n))

/-- The value of a program for `n`. -/
def valueFor (program : String) (n : Int) : Except Error Value :=
  (runIn (environmentFor n) Vocabulary.factorial.serial program).1

/-- A line with the factorial of `n` by a program. -/
def line (program : String) (n : Nat) : String :=
  toString n ++ "! = " ++ outcomeText (valueFor program n)

/-- A line with a program and its outcome. -/
def outcomeLine (program : String) : String :=
  match (runIn Vocabulary.factorial.environment Vocabulary.factorial.serial program).1 with
  | .ok value => "✅ " ++ program ++ " -> " ++ value.display
  | .error error => "❌ " ++ program ++ " -> [" ++ error.stage.title ++ "] " ++ error.message

/-- The page of the demonstration. -/
def lines : List String :=
  banner "Factorial" ++
  heading "Example 1: loop" ++ (List.range' 1 6).map (line looped) ++
  heading "\nExample 2: recursion" ++ (List.range' 1 6).map (line recursive) ++
  heading "\nExample 3: errors" ++ failing.map outcomeLine

end SExprLang.Demo.Factorial
