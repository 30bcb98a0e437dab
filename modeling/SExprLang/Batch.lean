import SExprLang.Evaluation.Run

/-!
# Batches

One expression is evaluated in many environments, the rows of the batch. Few rows are evaluated one after the other;
more go to a pool of threads, where a `Schedule` says in which order they are taken up. Every row has identities of a
region of its own, so that what a row gives does not hang on the order. A batch either has an outcome for every row
(`Batch.evaluate`) or stops early at a failure (`Batch.tryEvaluate`).
-/

namespace SExprLang.Batch

/-! ## Plans -/

/-- When a batch goes to a pool, and the size of the pool. -/
structure Config where
  /-- The greatest number of threads. -/
  threadLimit : Nat
  /-- The number of rows from which on a pool is used. -/
  poolThreshold : Nat

/-- Two rows are enough for a pool, unless said otherwise. -/
def defaultPoolThreshold : Nat := 2

namespace Config

/-- Whether so many rows are evaluated one after the other, without a pool. -/
def isInline (config : Config) (rows : Nat) : Bool := decide (rows < max config.poolThreshold 1)

/-- The number of threads for so many rows: at least one, and no more than there are rows. -/
def threads (config : Config) (rows : Nat) : Nat := min (max config.threadLimit 1) rows

end Config

/-- How a pool works through the rows of a batch. -/
structure Schedule where
  /-- The rows in the order in which they are taken up. -/
  order : List Nat
  /-- How many more rows are taken up after the first failure. -/
  overrun : Nat
  /-- Which of the failures is reported, counted from the first. -/
  reported : Nat

/-- The schedule that takes up the rows in order and stops at the first failure. -/
def Schedule.inOrder (rows : Nat) : Schedule := ⟨List.range rows, 0, 0⟩

/-- The schedule for so many rows: without a pool in order, on a pool as given. -/
def Config.schedule (config : Config) (onPool : Schedule) (rows : Nat) : Schedule :=
  if config.isInline rows then .inOrder rows else onPool

/-! ## Rows -/

/-- A row: the machine it has reached and, once it has been evaluated, its outcome. -/
structure Row where
  machine : Machine
  outcome : Option (Except EvalError Value)

namespace Row

/-- The rows of environments in which nothing has been evaluated. Row `i` has the identities of region `i + 1`. -/
def ofEnvironments (serial : Nat) (environments : List Environment) : List Row :=
  environments.zipIdx.map fun (env, i) => ⟨⟨env, i + 1, serial, []⟩, none⟩

/-- Evaluates the row. -/
def evaluate (e : Expression) (depth : Nat) (row : Row) : Option Row :=
  (row.machine.evaluate e depth).map fun (outcome, machine) => ⟨machine, some outcome⟩

/-- The error of a row that has failed. -/
def failure? (row : Row) : Option EvalError :=
  match row.outcome with
  | some (.error error) => some error
  | _ => none

/-- The value of a row that has one. -/
def value? (row : Row) : Option Value :=
  match row.outcome with
  | some (.ok value) => some value
  | _ => none

end Row

/-! ## Working through rows -/

/-- Evaluates the row of a number, if there is one. -/
def visit (e : Expression) (depth : Nat) (rows : List Row) (i : Nat) : Option (List Row) :=
  match rows[i]? with
  | some row => (row.evaluate e depth).map (rows.set i ·)
  | none => some rows

/-- Evaluates the rows of the given numbers one after the other. -/
def visitAll (e : Expression) (depth : Nat) (rows : List Row) (order : List Nat) : Option (List Row) :=
  order.foldlM (visit e depth) rows

/-- Evaluates the rows of the given numbers up to the first failure, and then `overrun` more of them. -/
def visitUntilFailure (e : Expression) (depth overrun : Nat) : List Row → List Nat → Option (List Row)
  | rows, [] => some rows
  | rows, i :: order => do
    let rows ← visit e depth rows i
    match rows[i]?.bind Row.failure? with
    | some _ => visitAll e depth rows (order.take overrun)
    | none => visitUntilFailure e depth overrun rows order

/-! ## Results -/

/-- What a batch leaves behind. -/
structure Result where
  /-- The environments of the rows afterwards. -/
  environments : List Environment
  /-- The number of the next identity, in all regions. -/
  serial : Nat
  /-- The events of the batch, the first one first. -/
  events : List Event

/-- What a batch leaves when its rows have come so far. The events of the rows count only without a pool; a pool reports
that it has been set up. -/
def Config.result (config : Config) (failFast : Bool) (serial : Nat) (rows : List Row) : Result where
  environments := rows.map (·.machine.env)
  serial := rows.foldl (fun serial row => max serial row.machine.serial) serial
  events :=
    if config.isInline rows.length then rows.flatMap (·.machine.events.reverse)
    else [.batch rows.length (config.threads rows.length) failFast]

/-- Evaluates an expression in every environment and gives one outcome for each, in their order. -/
def evaluate (config : Config) (onPool : Schedule) (e : Expression) (serial : Nat) (environments : List Environment)
    (depth : Nat := evaluationDepth) : Option (List (Except EvalError Value) × Result) := do
  let schedule := config.schedule onPool environments.length
  let rows ← visitAll e depth (Row.ofEnvironments serial environments) schedule.order
  return (rows.filterMap (·.outcome), config.result false serial rows)

/-- Evaluates an expression in every environment up to a failure. Gives the values of all rows in their order, or the
error that is reported. -/
def tryEvaluate (config : Config) (onPool : Schedule) (e : Expression) (serial : Nat) (environments : List Environment)
    (depth : Nat := evaluationDepth) : Option (Except EvalError (List Value) × Result) := do
  let schedule := config.schedule onPool environments.length
  let rows ← visitUntilFailure e depth schedule.overrun (Row.ofEnvironments serial environments) schedule.order
  let failures := schedule.order.filterMap fun i => rows[i]?.bind Row.failure?
  let outcome := match failures[schedule.reported]?.or failures.head? with
    | some error => .error error
    | none => .ok (rows.filterMap Row.value?)
  return (outcome, config.result true serial rows)

end SExprLang.Batch
