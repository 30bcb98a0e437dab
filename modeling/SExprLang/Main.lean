import SExprLang.Demo.Index

/-!
# Showing a demonstration

Prints the page of the demonstration that the argument names.
-/

open SExprLang

/-- Prints a page, or the names of all pages if there is none of that name. -/
def main (arguments : List String) : IO UInt32 := do
  match arguments.head?.bind Demo.page? with
  | some lines =>
    for line in lines do
      IO.println line
    return 0
  | none =>
    IO.eprintln ("demonstrations: " ++ ", ".intercalate (Demo.pages.map (·.1)))
    return 1
