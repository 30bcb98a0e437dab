import SExprLang.Host.Literal
import SExprLang.Evaluation.Run
import SExprLang.Vocabulary

/-!
# Sessions

A session is a host at work: it has several environments, one of which is the current one, and programs by name. Each
`Step` is one request to it and has one `Answer`.
-/

namespace SExprLang.Host

/-- The state of a session. -/
structure Session where
  /-- The environment of the vocabulary alone, with which others are compared. -/
  base : Environment
  environments : Array Environment
  /-- The number of the current environment. -/
  current : Nat
  /-- The programs by name, the newest first. -/
  programs : List (String × Expression)
  /-- The number of the next identity. -/
  serial : Nat
  /-- The events so far, last first. -/
  events : List Event

/-- A request to a session. Paths lead from the root of a program down by item numbers. -/
inductive Step where
  | run (text : String)
  | compile (name text : String)
  | evaluate (program : String) (path : List Nat)
  /-- The value of an expression as a number. -/
  | number (program : String) (path : List Nat)
  /-- The value of an expression as a string. -/
  | string (program : String) (path : List Nat)
  | define (name : String) (value : Literal)
  | remove (name : String)
  | get (name : String)
  | contains (name : String)
  | size
  | names
  | extend (bindings : List (String × Literal))
  /-- Whether two names are bound to equal values, or both to none. -/
  | same (a b : String)
  /-- Adds a copy of the current environment. -/
  | copy
  /-- Adds a copy of the current environment with one more binding. -/
  | copyWith (name : String) (value : Literal)
  /-- Makes another environment the current one. -/
  | use (environment : Nat)
  /-- The text of the current environment, if it has at most one binding. -/
  | inspect
  /-- How the current environment differs from the vocabulary. -/
  | dump

/-- What a session answers. -/
inductive Answer where
  | outcome (result : Except Error Value)
  | rendered (text : String)
  /-- There is no such program, or nothing at that path. -/
  | absent
  /-- The value that a name was bound to before a step. -/
  | previous (value : Option Value)
  | binding (value : Option Value)
  | truth (value : Bool)
  | size (size : Nat)
  | names (names : List String)
  | environment (number : Nat)
  | text (text : Option String)
  | changes (changes : Environment.Changes)
  /-- The depth that programs are granted does not suffice. -/
  | exhausted

namespace Session

/-- A session that starts with one environment: a vocabulary and the bindings that the host adds. -/
def start (vocabulary : Vocabulary) (bindings : List (String × Literal)) : Session :=
  let base := vocabulary.environment
  let (env, serial) := Host.extend base vocabulary.serial bindings
  ⟨base, #[env], 0, [], serial, []⟩

/-- The current environment. -/
def env (s : Session) : Environment := s.environments.getD s.current .empty

/-- The session with another current environment. -/
def setEnv (s : Session) (env : Environment) : Session :=
  { s with environments := s.environments.setIfInBounds s.current env }

/-- The session with one more environment. -/
def addEnv (s : Session) (env : Environment) : Answer × Session :=
  (.environment s.environments.size, { s with environments := s.environments.push env })

/-- The machine for a run in the current environment. -/
def machine (s : Session) : Machine := ⟨s.env, 0, s.serial, s.events⟩

/-- The session after a run. -/
def afterRun (s : Session) (machine : Machine) : Session :=
  { s.setEnv machine.env with serial := machine.serial, events := machine.events }

/-- The part of a program at a path. -/
def find? (s : Session) (program : String) (path : List Nat) : Option Expression := do
  (← s.programs.lookup program).descend? path

/-- Answers with what a run gives. -/
def ofRun (s : Session) (run : Option (Except Error Value × Machine)) : Answer × Session :=
  match run with
  | some (outcome, machine) => (.outcome outcome, s.afterRun machine)
  | none => (.exhausted, s)

/-- Runs in the current environment and answers with the value. -/
def perform (s : Session) (action : Eval Value) : Answer × Session :=
  s.ofRun ((action.start s.machine).map fun (outcome, machine) => (outcome.mapError .eval, machine))

/-- Resolves a literal in the current environment. -/
def resolve (s : Session) (literal : Literal) : Value × Session :=
  let (value, serial) := literal.resolve s.env s.serial
  (value, { s with serial })

/-- The evaluator with the depth that programs are granted. -/
def evaluator : Expression → Eval Value := SExprLang.evaluate evaluationDepth

/-- Takes one step. -/
def step (s : Session) : Step → Answer × Session
  | .run text => s.ofRun (s.machine.run text)
  | .compile name text =>
    let s := { s with events := (compileEvents text).reverse ++ s.events }
    match SExprLang.compile text with
    | .ok e => (.rendered e.render, { s with programs := (name, e) :: s.programs })
    | .error error => (.outcome (.error (.compile error)), s)
  | .evaluate program path =>
    match s.find? program path with
    | some e => s.perform (evaluator e)
    | none => (.absent, s)
  | .number program path => s.perform do return .number (← Eval.numberArg evaluator (s.find? program path))
  | .string program path => s.perform do return .string (← Eval.stringArg evaluator (s.find? program path))
  | .define name literal =>
    let (value, s) := s.resolve literal
    (.previous (s.env.get? name), s.setEnv (s.env.define name value))
  | .remove name => (.previous (s.env.get? name), s.setEnv (s.env.remove name))
  | .get name => (.binding (s.env.get? name), s)
  | .contains name => (.truth (s.env.contains name), s)
  | .size => (.size s.env.size, s)
  | .names => (.names s.env.names, s)
  | .extend bindings =>
    let (env, serial) := Host.extend s.env s.serial bindings
    (.size env.size, { s.setEnv env with serial })
  | .same a b =>
    match s.env.get? a, s.env.get? b with
    | some v, some w => (.truth (v.eqv w), s)
    | none, none => (.truth true, s)
    | _, _ => (.truth false, s)
  | .copy => s.addEnv s.env
  | .copyWith name literal =>
    let (value, s) := s.resolve literal
    s.addEnv (s.env.define name value)
  | .use environment => (.environment environment, { s with current := environment })
  | .inspect => (.text (if s.env.size ≤ 1 then some s.env.inspect else none), s)
  | .dump => (.changes (s.env.changesFrom s.base), s)

/-- Takes steps one after the other. -/
def run (s : Session) : List Step → List Answer × Session
  | [] => ([], s)
  | first :: rest =>
    let (answer, s) := s.step first
    let (answers, s) := s.run rest
    (answer :: answers, s)

/-- How each environment differs from the vocabulary. -/
def changes (s : Session) : List Environment.Changes := s.environments.toList.map (·.changesFrom s.base)

end Session

end SExprLang.Host
