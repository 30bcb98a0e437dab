import SExprLang.Expression

/-!
# Building expressions from tokens

The tokens are read once from left to right with the lists that are still open on a stack, the innermost first.
`Expression.ofTokens` gives the one expression that the tokens spell or the first reason why there is none.
-/

namespace SExprLang

/-- Why tokens are not an expression. -/
inductive ParseError where
  /-- There is no token. -/
  | noTokens
  /-- The tokens end inside the list that was opened at the position. -/
  | unclosed (position : Position)
  /-- A closing parenthesis without a list. -/
  | strayClose (position : Position)
  /-- The first token after a complete expression. -/
  | leftover (token : Token)
deriving DecidableEq

namespace ParseError

/-- The error in words. -/
def message : ParseError → String
  | noTokens => "unexpected end of file"
  | unclosed position => "unexpected end of file; cannot close list opened at " ++ position.display
  | strayClose position => "unexpected \")\" at " ++ position.display
  | leftover token => "extra content after token " ++ token.display

/-- Where the error is, if it has a place. -/
def position? : ParseError → Option Position
  | noTokens => none
  | unclosed position | strayClose position => some position
  | leftover token => some token.position

/-- Whether two errors agree, tokens compared as tokens. -/
def eqv : ParseError → ParseError → Bool
  | noTokens, noTokens => true
  | unclosed p, unclosed q => p == q
  | strayClose p, strayClose q => p == q
  | leftover s, leftover t => s.eqv t
  | _, _ => false

end ParseError

namespace Expression

/-- A list that is still open: where it was opened and its items so far, last first. -/
structure Frame where
  position : Position
  items : List Expression

/-- The list that a closing parenthesis completes. -/
def Frame.close (frame : Frame) : Expression := list frame.items.reverse frame.position

/-- The frame with one more item. -/
def Frame.add (frame : Frame) (item : Expression) : Frame := { frame with items := item :: frame.items }

/-- Puts a complete expression into the innermost open list and reads on. Outside of all lists it is the answer, and no
token may follow it. -/
def place (e : Expression) (rest : List Token) (readOn : List Frame → Except ParseError Expression) :
    List Frame → Except ParseError Expression
  | frame :: outer => readOn (frame.add e :: outer)
  | [] =>
    match rest with
    | [] => .ok e
    | token :: _ => .error (.leftover token)

/-- Reads tokens inside the open lists of the stack, the innermost first. -/
def parse : List Token → List Frame → Except ParseError Expression
  | [], [] => .error .noTokens
  | [], frame :: _ => .error (.unclosed frame.position)
  | token :: rest, stack =>
    match token.kind, stack with
    | .symbol name, _ => place (symbol name token.position) rest (parse rest) stack
    | .number value, _ => place (number value token.lexeme token.position) rest (parse rest) stack
    | .string value, _ => place (string value token.position) rest (parse rest) stack
    | .listOpen, _ => parse rest (⟨token.position, []⟩ :: stack)
    | .listClose, [] => .error (.strayClose token.position)
    | .listClose, frame :: outer => place frame.close rest (parse rest) outer

/-- The expression that the tokens spell. -/
def ofTokens (tokens : List Token) : Except ParseError Expression := parse tokens []

end Expression

end SExprLang
