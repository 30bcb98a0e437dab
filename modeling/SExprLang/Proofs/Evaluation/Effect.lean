import Mathlib.Data.List.Forall2
import SExprLang.Proofs.Evaluation.Reading

/-!
# What a run comes to

To say what a program computes is to say what its parts read and what they write. `Eval.Reads` is the statement about a
part that only reads; `Eval.Leads` is the one about a part that ends with a value and leaves another environment behind.
The rules here take the evaluator apart: symbols, lists with an operation at the head, arguments and sequences of them.
-/

namespace SExprLang.Eval

/-! ## From one environment to another -/

/-- In the environment `env` the run ends with the value `v` and leaves the environment `env'`. Nothing else changes but
the events. -/
def Leads {α : Type} (env : Environment) (run : Eval α) (v : α) (env' : Environment) : Prop :=
  ∀ machine, machine.env = env →
    ∃ events, run.start machine = some (.ok v, { machine with env := env', events := events })

variable {α β ι : Type} {env env' env'' : Environment}

theorem Reads.leads {run : Eval α} {v : α} (h : Reads env run (some (.ok v))) : Leads env run v env := by
  rintro machine rfl
  exact h machine rfl

namespace Leads

theorem define (name : String) (v : Value) : Leads env (define name v) () (env.define name v) := by
  rintro machine rfl
  exact ⟨machine.events, rfl⟩

theorem bind {run : Eval α} {next : α → Eval β} {v : α} {w : β} (h : Leads env run v env')
    (hnext : Leads env' (next v) w env'') : Leads env (run >>= next) w env'' := by
  intro machine henv
  obtain ⟨first, hrun⟩ := h machine henv
  rw [start_bind, hrun]
  exact hnext { machine with env := env', events := first } rfl

end Leads

namespace Reads

theorem outcome_eq {run : Eval α} {outcome : Option (Except EvalError α)} (h : Reads env run outcome) {machine : Machine}
    (henv : machine.env = env) : (run.start machine).map (·.1) = outcome := by
  obtain ⟨events, hrun⟩ := h machine henv
  rw [hrun, Option.map_map]
  exact Option.map_id'

/-- A result that is made from another one. -/
theorem map {run : Eval α} {outcome : Except EvalError α} (h : Reads env run (some outcome)) (make : α → β) :
    Reads env (do return make (← run)) (some (outcome.map make)) := by
  cases outcome with
  | error error => exact h.bind_error
  | ok v => exact h.bind (.pure (make v))

/-! ## Arguments -/

section

variable {evaluate : Expression → Eval Value} {e : Expression}

/-- An argument whose value is converted, in whatever way. -/
theorem convertedArg (convert : Expression → Value → Except EvalError α) {v : Value}
    (h : Reads env (evaluate e) (some (.ok v))) :
    Reads env (do
      let e ← present (some e)
      Eval.ofExcept (convert e (← evaluate e))) (some (convert e v)) :=
  (Reads.pure e).bind (h.bind (.ofExcept (convert e v)))

theorem convertedArg_error (convert : Expression → Value → Except EvalError α) {error : EvalError}
    (h : Reads env (evaluate e) (some (.error error))) :
    Reads env (do
      let e ← present (some e)
      Eval.ofExcept (convert e (← evaluate e))) (some (.error error)) :=
  (Reads.pure e).bind h.bind_error

theorem stringArg {s : String} (h : Reads env (evaluate e) (some (.ok (.string s)))) :
    Reads env (stringArg evaluate (some e)) (some (.ok s)) := h.convertedArg asString

theorem stringsArg {values : List String} (h : Reads env (evaluate e) (some (.ok (.strings values)))) :
    Reads env (stringsArg evaluate (some e)) (some (.ok values)) := h.convertedArg asStrings

theorem numberArg_bool {b : Bool} (h : Reads env (evaluate e) (some (.ok (.bool b)))) :
    Reads env (numberArg evaluate (some e)) (some (.ok (.ofBool b))) := h.convertedArg asNumber

theorem numberArg {x : Double} (h : Reads env (evaluate e) (some (.ok (.number x)))) :
    Reads env (numberArg evaluate (some e)) (some (.ok x)) := h.convertedArg asNumber

end

/-! ## Lists of runs -/

variable {f : ι → Eval α} {xs : List ι} {vs : List α}

theorem mapM (h : List.Forall₂ (fun x v => Reads env (f x) (some (.ok v))) xs vs) :
    Reads env (xs.mapM f) (some (.ok vs)) := by
  induction h with
  | nil => exact .pure []
  | cons hx _ ih =>
    rw [List.mapM_cons]
    exact hx.bind (ih.bind (.pure _))

/-- The first error ends a sequence of runs, whatever comes after it. -/
theorem mapM_error (h : List.Forall₂ (fun x v => Reads env (f x) (some (.ok v))) xs vs) {x : ι} {error : EvalError}
    (hx : Reads env (f x) (some (.error error))) (rest : List ι) :
    Reads env ((xs ++ x :: rest).mapM f) (some (.error error)) := by
  induction h with
  | nil =>
    rw [List.nil_append, List.mapM_cons]
    exact hx.bind_error
  | cons hfirst _ ih =>
    rw [List.cons_append, List.mapM_cons]
    exact hfirst.bind ih.bind_error

/-! ## The evaluator -/

variable {depth : Nat} {name : String}

theorem number (x : Double) (lexeme : String) (p : Position) :
    Reads env (evaluate (depth + 1) (.number x lexeme p)) (some (.ok (.number x))) :=
  Reads.pure (Value.number x)

theorem string (s : String) (p : Position) : Reads env (evaluate (depth + 1) (.string s p)) (some (.ok (.string s))) :=
  Reads.pure (Value.string s)

theorem symbol {v : Value} (hget : env.get? name = some v) (p : Position) :
    Reads env (evaluate (depth + 1) (.symbol name p)) (some (.ok v)) := by
  refine (Reads.lookup name).bind ?_
  rw [hget]
  exact .pure v

theorem unboundSymbol (hget : env.get? name = none) (p : Position) :
    Reads env (evaluate (depth + 1) (.symbol name p)) (some (.error (.unboundSymbol name p))) := by
  refine (Reads.lookup name).bind ?_
  rw [hget]
  exact .raise _

/-- A list whose head is bound to an operation comes to what the operation does. -/
theorem performed {operation : Operation} {arguments : List Expression} {outcome : Option (Except EvalError Value)}
    (hget : env.get? name = some (.operation operation))
    (h : Reads env (operation.action.perform (evaluate (depth + 1)) arguments) outcome) (p q : Position) :
    Reads env (evaluate (depth + 2) (.list (.symbol name p :: arguments) q)) outcome :=
  (Reads.symbol hget p).bind ((Reads.report _).bind h)

end Reads

/-- A list whose head is bound to an operation leads where the operation does. -/
theorem Leads.performed {depth : Nat} {name : String} {operation : Operation} {arguments : List Expression} {v : Value}
    (hget : env.get? name = some (.operation operation))
    (h : Leads env (operation.action.perform (evaluate (depth + 1)) arguments) v env') (p q : Position) :
    Leads env (evaluate (depth + 2) (.list (.symbol name p :: arguments) q)) v env' :=
  (Reads.symbol hget p).leads.bind ((Reads.report _).leads.bind h)

/-- A list whose head is bound to an operation starts what the operation does, after the event of it. -/
theorem start_performed {machine : Machine} {depth : Nat} {name : String} {operation : Operation}
    {arguments : List Expression} (hget : machine.env.get? name = some (.operation operation)) (p q : Position) :
    (evaluate (depth + 2) (.list (.symbol name p :: arguments) q)).start machine =
      (operation.action.perform (evaluate (depth + 1)) arguments).start
        { machine with events := .dispatch (.symbol name p) arguments.length :: machine.events } := by
  have hhead : (evaluate (depth + 1) (.symbol name p)).start machine = some (.ok (.operation operation), machine) := by
    rw [evaluate, start_bind, start_lookup, hget]
    rfl
  rw [evaluate, start_bind, hhead]
  rfl

end SExprLang.Eval
