import SExprLang.Event
import SExprLang.Expression.OfTokens
import SExprLang.Token.Scan

/-!
# Compilation

From text to expression: `compile` scans the text and builds the expression of its tokens.
-/

namespace SExprLang

/-- Why a text is not an expression. -/
inductive CompileError where
  | tokenizer (error : LexError)
  | parser (error : ParseError)
deriving DecidableEq

namespace CompileError

/-- The error in words, after the stage at which it arose. -/
def message : CompileError → String
  | tokenizer error => "tokenizer error: " ++ error.message
  | parser error => "parser error: " ++ error.message

/-- Where the error is, if it has a place. -/
def position? : CompileError → Option Position
  | tokenizer error => error.position?
  | parser error => error.position?

/-- Whether two errors agree, tokens compared as tokens. -/
def eqv : CompileError → CompileError → Bool
  | tokenizer a, tokenizer b => a == b
  | parser a, parser b => a.eqv b
  | _, _ => false

end CompileError

/-- The expression that a text spells. -/
def compile (text : String) : Except CompileError Expression := do
  let tokens ← (Token.scan text).mapError .tokenizer
  (Expression.ofTokens tokens).mapError .parser

/-- What compiling a text reports: the number of its tokens, if it has any reading as tokens. -/
def compileEvents (text : String) : List Event :=
  match Token.scan text with
  | .ok tokens => [.tokenized tokens.length]
  | .error _ => []

/-- Whether two outcomes of the same step agree, successes by one comparison and failures by the other. -/
def outcomeEqv {ε α : Type} (errorEqv : ε → ε → Bool) (valueEqv : α → α → Bool) : Except ε α → Except ε α → Bool
  | .ok a, .ok b => valueEqv a b
  | .error a, .error b => errorEqv a b
  | _, _ => false

/-- Whether two texts have the same tokens or the same lexical error. -/
def scanEqv (a b : String) : Bool := outcomeEqv (· == ·) Token.eqvList (Token.scan a) (Token.scan b)

/-- Whether two texts compile to the same expression or fail with the same error. -/
def compileEqv (a b : String) : Bool := outcomeEqv CompileError.eqv Expression.eqv (compile a) (compile b)

/-- Whether the rendering of an expression compiles to an expression with the same rendering. -/
def rendersStably (e : Expression) : Bool :=
  match compile e.render with
  | .ok again => again.render == e.render
  | .error _ => false

end SExprLang
