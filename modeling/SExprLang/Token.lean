import SExprLang.Decimal.Numeral
import SExprLang.Position

/-!
# Tokens

A token is a parenthesis, a bare word, which is a number if it reads as one and a symbol otherwise, or a string between
double quotes. It keeps its text as it stands in the source and the position of its first character.
-/

namespace SExprLang

/-- What a token is, with the value it denotes. -/
inductive TokenKind where
  | symbol (name : String)
  | number (value : Double)
  | string (value : String)
  | listOpen
  | listClose
deriving DecidableEq

namespace TokenKind

/-- The name of the kind. -/
def name : TokenKind → String
  | symbol _ => "symbol"
  | number _ => "number"
  | string _ => "string"
  | listOpen => "list-open"
  | listClose => "list-close"

/-- What a bare word denotes. -/
def ofWord (text : String) : TokenKind :=
  match Double.read? text with
  | some value => number value
  | none => symbol text

/-- Whether two kinds agree with their values, numbers compared as numbers. -/
def eqv : TokenKind → TokenKind → Bool
  | symbol a, symbol b => a == b
  | number a, number b => a.numEq b
  | string a, string b => a == b
  | listOpen, listOpen => true
  | listClose, listClose => true
  | _, _ => false

end TokenKind

/-- A lexical unit of source text. -/
structure Token where
  kind : TokenKind
  /-- The text of the token, quotes and escapes included. -/
  lexeme : String
  /-- The position of the first character. -/
  position : Position
deriving DecidableEq

namespace Token

/-- Kind, text and position of a token on one line. -/
def display (t : Token) : String := t.kind.name ++ " " ++ t.lexeme ++ " at " ++ t.position.display

/-- Whether two tokens agree in kind, value, text and position. -/
def eqv (a b : Token) : Bool := a.kind.eqv b.kind && a.lexeme == b.lexeme && a.position == b.position

/-- Whether two token lists agree token by token. -/
def eqvList : List Token → List Token → Bool
  | [], [] => true
  | a :: as, b :: bs => a.eqv b && eqvList as bs
  | _, _ => false

end Token

end SExprLang
