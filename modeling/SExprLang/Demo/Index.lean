import SExprLang.Demo.Factorial
import SExprLang.Demo.Features

/-!
# The demonstrations by name
-/

namespace SExprLang.Demo

/-- The pages by name. -/
def pages : List (String × List String) := [("factorial", Factorial.lines), ("features", Features.lines)]

/-- The page of a name. -/
def page? (name : String) : Option (List String) := pages.lookup name

end SExprLang.Demo
