import SExprLang.Token

/-!
# Expressions

An expression is a symbol, a number, a string or a list of expressions, and every one knows where it stands in the
source text. `Expression.render` writes an expression on one line, and `Expression.nodes` lists it with everything in
it.
-/

namespace SExprLang

/-- A node of the syntax tree. -/
inductive Expression where
  | symbol (name : String) (position : Position)
  /-- A number and the numeral it was written as. -/
  | number (value : Double) (lexeme : String) (position : Position)
  | string (value : String) (position : Position)
  /-- A list, at the position of its opening parenthesis. -/
  | list (items : List Expression) (position : Position)

namespace Expression

instance : Inhabited Expression := ⟨list [] default⟩

/-! ## Parts -/

/-- The position of the first character. -/
def position : Expression → Position
  | symbol _ position | number _ _ position | string _ position | list _ position => position

/-- Whether the expression is not a list. -/
def isAtom : Expression → Bool
  | list .. => false
  | _ => true

/-- The name of a symbol. -/
def symbolName? : Expression → Option String
  | symbol name _ => some name
  | _ => none

/-- The items of a list. -/
def items? : Expression → Option (List Expression)
  | list items _ => some items
  | _ => none

/-- The expression below this one that a path of item numbers leads to. -/
def descend? (e : Expression) : List Nat → Option Expression
  | [] => some e
  | i :: path => do (← (← e.items?)[i]?).descend? path

/-! ## Rendering -/

/-- A string between double quotes, with a backslash before every quote and backslash in it. -/
def renderString (value : String) : String :=
  String.ofList ('"' :: (value.toList.flatMap fun c => if c = '"' ∨ c = '\\' then ['\\', c] else [c]) ++ ['"'])

mutual

/-- The expression on one line, with one space between the items of a list. -/
def render : Expression → String
  | symbol name _ => name
  | number _ lexeme _ => lexeme
  | string value _ => renderString value
  | list items _ => "(" ++ renderItems items ++ ")"

/-- Expressions one after the other with a space between them. -/
def renderItems : List Expression → String
  | [] => ""
  | [e] => e.render
  | e :: rest => e.render ++ " " ++ renderItems rest

end

/-! ## Comparison -/

mutual

/-- Whether two expressions agree in everything, positions included. Numbers are compared as numbers. -/
def eqv : Expression → Expression → Bool
  | symbol a p, symbol b q => a == b && p == q
  | number a l p, number b m q => a.numEq b && l == m && p == q
  | string a p, string b q => a == b && p == q
  | list as p, list bs q => eqvItems as bs && p == q
  | _, _ => false

/-- Whether two sequences of expressions agree item by item. -/
def eqvItems : List Expression → List Expression → Bool
  | [], [] => true
  | a :: as, b :: bs => a.eqv b && eqvItems as bs
  | _, _ => false

end

mutual

/-- Decides whether two expressions are the same, number by number in all bits. -/
protected def decEq : (a b : Expression) → Decidable (a = b)
  | symbol a p, symbol b q => decidable_of_iff (a = b ∧ p = q) (by simp)
  | number a l p, number b m q => decidable_of_iff (a = b ∧ l = m ∧ p = q) (by simp)
  | string a p, string b q => decidable_of_iff (a = b ∧ p = q) (by simp)
  | list as p, list bs q =>
    have := Expression.decEqItems as bs
    decidable_of_iff (as = bs ∧ p = q) (by simp)
  | symbol .., number .. | symbol .., string .. | symbol .., list .. => isFalse nofun
  | number .., symbol .. | number .., string .. | number .., list .. => isFalse nofun
  | string .., symbol .. | string .., number .. | string .., list .. => isFalse nofun
  | list .., symbol .. | list .., number .. | list .., string .. => isFalse nofun

/-- Decides whether two sequences of expressions are the same. -/
protected def decEqItems : (as bs : List Expression) → Decidable (as = bs)
  | [], [] => isTrue rfl
  | a :: as, b :: bs =>
    have := Expression.decEq a b
    have := Expression.decEqItems as bs
    decidable_of_iff (a = b ∧ as = bs) (by simp)
  | [], _ :: _ => isFalse nofun
  | _ :: _, [] => isFalse nofun

end

instance : DecidableEq Expression := Expression.decEq

/-! ## Nodes -/

mutual

/-- The nodes of the tree with their depths, every list before its items. -/
def nodesFrom (depth : Nat) : Expression → List (Nat × Expression)
  | list items position => (depth, list items position) :: nodesOfItems (depth + 1) items
  | atom => [(depth, atom)]

/-- The nodes of a sequence of trees, one tree after the other. -/
def nodesOfItems (depth : Nat) : List Expression → List (Nat × Expression)
  | [] => []
  | e :: rest => e.nodesFrom depth ++ nodesOfItems depth rest

end

/-- The nodes of the tree with their depths, the root first. -/
def nodes (e : Expression) : List (Nat × Expression) := e.nodesFrom 0

end Expression

end SExprLang
