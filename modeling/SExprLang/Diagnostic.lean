import SExprLang.Evaluation

/-!
# Errors of all stages and their diagnostics

A `Diagnostic` is what a host shows of an error: the stage at which it arose, its message and its position.
-/

namespace SExprLang

/-- The stages at which a program can fail. -/
inductive Stage where
  /-- Scanning the text. -/
  | tokenizer
  /-- Building the expression. -/
  | parser
  /-- Evaluating the expression. -/
  | evaluation
  /-- The host's own means of evaluation. -/
  | host
deriving DecidableEq

namespace Stage

/-- The name of a stage. -/
def name : Stage → String
  | tokenizer => "tokenizer"
  | parser => "parser"
  | evaluation => "evaluation"
  | host => "host"

/-- The stage of a name. -/
def ofName? (name : String) : Option Stage :=
  [tokenizer, parser, evaluation, host].find? (·.name == name)

/-- The name of a stage as a title. -/
def title : Stage → String
  | tokenizer => "Tokenizer"
  | parser => "Parser"
  | evaluation => "Evaluation"
  | host => "Host"

end Stage

/-- The error of any stage. -/
inductive Error where
  | compile (error : CompileError)
  | eval (error : EvalError)
  /-- The threads for a batch cannot be had. -/
  | threadPool (message : String)
deriving DecidableEq

namespace Error

/-- The error in words. -/
def message : Error → String
  | compile error => error.message
  | eval error => error.message
  | threadPool message => "thread pool error: " ++ message

/-- The stage at which the error arose. -/
def stage : Error → Stage
  | compile (.tokenizer _) => .tokenizer
  | compile (.parser _) => .parser
  | eval _ => .evaluation
  | threadPool _ => .host

/-- Where the error is, if it has a place. -/
def position? : Error → Option Position
  | compile error => error.position?
  | eval error => error.position?
  | threadPool _ => none

end Error

/-- What is shown of an error. -/
structure Diagnostic where
  stage : Stage
  message : String
  line : Option Nat
  column : Option Nat
deriving DecidableEq

/-- The diagnostic of an error. -/
def Error.diagnostic (error : Error) : Diagnostic where
  stage := error.stage
  message := error.message
  line := error.position?.map Position.line
  column := error.position?.map Position.column

end SExprLang
