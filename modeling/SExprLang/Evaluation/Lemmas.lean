import SExprLang.Evaluation

/-!
# Laws of runs

What each elementary run does to a machine, and the monad laws.
-/

namespace SExprLang.Eval

variable {α β : Type}

@[ext]
theorem ext_start {a b : Eval α} (h : ∀ machine, a.start machine = b.start machine) : a = b := funext h

@[simp]
theorem start_pure (value : α) (machine : Machine) : (pure value : Eval α).start machine = some (.ok value, machine) :=
  rfl

@[simp]
theorem start_ofExcept (outcome : Except EvalError α) (machine : Machine) :
    (ofExcept outcome).start machine = some (outcome, machine) := rfl

@[simp]
theorem start_raise (error : EvalError) (machine : Machine) :
    (raise error : Eval α).start machine = some (.error error, machine) := rfl

@[simp]
theorem start_exhausted (machine : Machine) : (exhausted : Eval α).start machine = none := rfl

/-- One run after another: the second starts where the first has ended with a value. -/
theorem start_bind (action : Eval α) (next : α → Eval β) (machine : Machine) :
    (action >>= next).start machine =
      match action.start machine with
      | none => none
      | some (.error error, machine) => some (.error error, machine)
      | some (.ok value, machine) => (next value).start machine := rfl

instance : LawfulMonad Eval := LawfulMonad.mk' Eval
  (fun action => ext_start fun machine => by
    show (action >>= fun value => pure value).start machine = _
    rw [start_bind]
    rcases action.start machine with _ | ⟨_ | _, _⟩ <;> rfl)
  (fun _ _ => rfl)
  (fun action _ _ => ext_start fun machine => by
    simp only [start_bind]
    rcases action.start machine with _ | ⟨_ | _, _⟩ <;> rfl)

/-! ## The state -/

@[simp]
theorem start_lookup (name : String) (machine : Machine) :
    (lookup name).start machine = some (.ok (machine.env.get? name), machine) := rfl

@[simp]
theorem start_define (name : String) (value : Value) (machine : Machine) :
    (define name value).start machine = some (.ok (), { machine with env := machine.env.define name value }) := rfl

@[simp]
theorem start_remove (name : String) (machine : Machine) :
    (remove name).start machine = some (.ok (), { machine with env := machine.env.remove name }) := rfl

@[simp]
theorem start_report (events : List Event) (machine : Machine) :
    (report events).start machine = some (.ok (), { machine with events := events.reverse ++ machine.events }) := rfl

/-- A run in a scope leaves the environment as it was. -/
theorem start_inScope (name : String) (value : Value) (action : Eval α) (machine : Machine) :
    (inScope name value action).start machine =
      (action.start { machine with env := machine.env.define name value }).map fun (outcome, after) =>
        (outcome, { after with env := machine.env }) := rfl

end SExprLang.Eval
