import SExprLang.Proofs.Evaluation.Culprit

/-!
# What a called function writes stays in the call

A function runs in a copy of its caller's environment, and the copy is given up when it ends. So a run that writes
nothing itself leaves its environment as it was, whatever the functions do that it calls (`evaluate_leaves`).
`Eval.Leaves` is the statement about one run; it goes through the constructions of runs one by one, and an action that
is not a writer has it if the evaluations of its arguments have it. Of the evaluations of bodies nothing is asked:
`Eval.inScope` has it as it is.
-/

namespace SExprLang

namespace Eval

/-- The run ends with the environment that it starts with, whatever the outcome, if that is `env`. -/
def Leaves {α : Type} (env : Environment) (action : Eval α) : Prop :=
  ∀ machine outcome after, machine.env = env → action.start machine = some (outcome, after) → after.env = env

namespace Leaves

variable {α β ι : Type} {env : Environment}

/-! ## Runs one after the other -/

theorem ofExcept (outcome : Except EvalError α) : Leaves env (ofExcept outcome) := by
  rintro machine _ _ henv ⟨⟩
  exact henv

theorem pure (value : α) : Leaves env (pure value : Eval α) := .ofExcept (.ok value)

theorem raise (error : EvalError) : Leaves env (raise error : Eval α) := .ofExcept (.error error)

/-- The second run need only leave the environment for values that the first can have. -/
theorem bind_of_value {action : Eval α} {next : α → Eval β} (h : Leaves env action)
    (hnext : ∀ machine value after, machine.env = env → action.start machine = some (.ok value, after) →
      Leaves env (next value)) : Leaves env (action >>= next) := by
  intro machine outcome after henv hrun
  rw [start_bind] at hrun
  cases hfirst : action.start machine with
  | none => simp [hfirst] at hrun
  | some result =>
    obtain ⟨first, between⟩ := result
    have hbetween : between.env = env := h machine first between henv hfirst
    rw [hfirst] at hrun
    cases first with
    | error error =>
      cases hrun
      exact hbetween
    | ok value => exact hnext machine value between henv hfirst between outcome after hbetween hrun

theorem bind {action : Eval α} {next : α → Eval β} (h : Leaves env action) (hnext : ∀ value, Leaves env (next value)) :
    Leaves env (action >>= next) :=
  h.bind_of_value fun _ value _ _ _ => hnext value

theorem foldlM {xs : List ι} {f : α → ι → Eval α} (h : ∀ x ∈ xs, ∀ a, Leaves env (f a x)) (a : α) :
    Leaves env (xs.foldlM f a) := by
  induction xs generalizing a with
  | nil => exact .pure a
  | cons x xs ih =>
    rw [List.foldlM_cons]
    exact (h x List.mem_cons_self a).bind (ih fun y hy => h y (List.mem_cons_of_mem x hy))

theorem mapM {xs : List ι} {f : ι → Eval α} (h : ∀ x ∈ xs, Leaves env (f x)) : Leaves env (xs.mapM f) := by
  induction xs with
  | nil => exact .pure []
  | cons x xs ih =>
    rw [List.mapM_cons]
    exact (h x List.mem_cons_self).bind fun _ =>
      (ih fun y hy => h y (List.mem_cons_of_mem x hy)).bind fun _ => .pure _

/-! ## The state -/

theorem lookup (name : String) : Leaves env (lookup name) := by
  rintro machine _ _ henv ⟨⟩
  exact henv

theorem report (events : List Event) : Leaves env (report events) := by
  rintro machine _ _ henv ⟨⟩
  exact henv

/-- A run in a scope has its own environment to write to. -/
theorem inScope (name : String) (value : Value) (action : Eval α) : Leaves env (inScope name value action) := by
  intro machine outcome after henv hrun
  rw [start_inScope] at hrun
  obtain ⟨_, _, hafter⟩ := Option.map_eq_some_iff.1 hrun
  cases hafter
  exact henv

/-! ## Arguments -/

section

variable {evaluate : Expression → Eval Value} {slot : Option Expression} {arguments : List Expression}

theorem valueArg (h : ∀ e ∈ slot, Leaves env (evaluate e)) : Leaves env (valueArg evaluate slot) := by
  cases slot with
  | none => exact .raise _
  | some e => exact h e rfl

/-- An argument whose value is converted, in whatever way. -/
theorem convertedArg (convert : Expression → Value → Except EvalError α) (h : ∀ e ∈ slot, Leaves env (evaluate e)) :
    Leaves env (do
      let e ← Eval.present slot
      Eval.ofExcept (convert e (← evaluate e))) := by
  cases slot with
  | none => exact .raise _
  | some e => exact (h e rfl).bind fun _ => .ofExcept _

theorem numberArg (h : ∀ e ∈ slot, Leaves env (evaluate e)) : Leaves env (numberArg evaluate slot) :=
  .convertedArg asNumber h

theorem stringArg (h : ∀ e ∈ slot, Leaves env (evaluate e)) : Leaves env (stringArg evaluate slot) :=
  .convertedArg asString h

theorem numberArgs (h : ∀ e ∈ arguments, Leaves env (evaluate e)) : Leaves env (numberArgs evaluate arguments) :=
  .mapM fun e he => .numberArg fun _ heq => Option.some.inj heq ▸ h e he

end

end Leaves

end Eval

/-! ## Actions -/

/-- The standard actions that bind names in the environment they are performed in. -/
def Action.Standard.writers : List Action.Standard := [.assign, .loop, .defineFunction]

section

open Eval

variable {env : Environment} {evaluate : Expression → Eval Value} {arguments : List Expression}

/-- Calling a function leaves the environment, whatever its body does. -/
theorem Action.Standard.call_leaves (name : String) (argument : Value) : Leaves env (call evaluate name argument) := by
  refine (Leaves.lookup name).bind fun found => ?_
  split
  · exact .inScope _ _ _
  · exact .raise _
  · exact .raise _

/-- An action that is not a writer leaves the environment if the evaluations of its arguments do. -/
theorem Action.Standard.perform_leaves {action : Action.Standard} (haction : action ∉ writers)
    (hargs : ∀ e ∈ arguments, Leaves env (evaluate e)) : Leaves env (action.perform evaluate arguments) := by
  have hat : ∀ (i : Nat), ∀ e ∈ arguments[i]?, Leaves env (evaluate e) := fun i e he =>
    hargs e (List.mem_of_getElem? he)
  cases action with
  | sequence => exact .foldlM (fun e he _ => hargs e he) _
  | sum => exact (Leaves.numberArgs hargs).bind fun _ => .pure _
  | product => exact (Leaves.numberArgs hargs).bind fun _ => .pure _
  | nonemptyProduct =>
    cases arguments with
    | nil => exact .raise _
    | cons e rest => exact (Leaves.numberArgs hargs).bind fun _ => .pure _
  | assign => exact absurd (by decide) haction
  | loop => exact absurd (by decide) haction
  | ifNonzero =>
    have hbranch : ∀ i : Nat, Leaves env (branchOrNil evaluate arguments[i]?) := by
      intro i
      cases harg : arguments[i]? with
      | none => exact .pure _
      | some e => exact hat i e harg
    refine (Leaves.numberArg (hat 0)).bind fun condition => ?_
    split
    · exact hbranch 2
    · exact hbranch 1
  | ifAboveOne =>
    refine (Leaves.numberArg (hat 0)).bind fun condition => ?_
    split
    · exact .valueArg (hat 1)
    · exact .valueArg (hat 2)
  | defineFunction => exact absurd (by decide) haction
  | callFunction =>
    exact (Leaves.stringArg (hat 0)).bind fun name => (Leaves.valueArg (hat 1)).bind fun argument =>
      call_leaves name argument

end

/-! ## Expressions that do not write -/

/-- Every list in the expression that is not empty has a symbol at its head, and the environment does not bind it to an
operation that writes. -/
def Expression.Quiet (env : Environment) (e : Expression) : Prop :=
  ∀ head arguments p, e.HasNode (.list (head :: arguments) p) → ∃ name q, head = .symbol name q ∧
    ∀ operation, env.get? name = some (.operation operation) →
      ∀ action ∈ Action.Standard.writers, operation.action ≠ .standard action

theorem Expression.Quiet.item {env : Environment} {items : List Expression} {p : Position}
    (h : Quiet env (.list items p)) {item : Expression} (hmem : item ∈ items) : item.Quiet env :=
  fun head arguments q hn => h head arguments q (hasNode_list_iff.2 (Or.inr ⟨item, hmem, hn⟩))

open Eval

/-- A symbol has the value that it is bound to. -/
theorem get?_of_evaluate_symbol {depth : Nat} {name : String} {p : Position} {machine after : Machine} {value : Value}
    (h : (evaluate depth (.symbol name p)).start machine = some (.ok value, after)) :
    machine.env.get? name = some value := by
  cases depth with
  | zero => cases h
  | succ depth =>
    simp only [evaluate, start_bind, start_lookup] at h
    cases hget : machine.env.get? name with
    | none =>
      rw [hget] at h
      cases h
    | some found =>
      rw [hget] at h
      cases h
      rfl

theorem evaluate_symbol_leaves (depth : Nat) (env : Environment) (name : String) (p : Position) :
    Leaves env (evaluate depth (.symbol name p)) := by
  cases depth with
  | zero => exact fun _ _ _ _ h => nomatch h
  | succ depth =>
    refine (Leaves.lookup name).bind fun found => ?_
    cases found with
    | none => exact .raise _
    | some value => exact .pure value

/-- The step from the arguments of a list to the list. -/
theorem evaluate_list_leaves {depth : Nat} {env : Environment} {head : Expression} {arguments : List Expression}
    {p : Position} (hover : env.Over Vocabulary.standard.Offers)
    (hquiet : Expression.Quiet env (.list (head :: arguments) p))
    (hargs : ∀ e ∈ arguments, Leaves env (evaluate depth e)) :
    Leaves env (evaluate (depth + 1) (.list (head :: arguments) p)) := by
  obtain ⟨name, q, rfl, hwrites⟩ := hquiet head arguments p (Expression.hasNode_self _)
  refine (evaluate_symbol_leaves depth env name q).bind_of_value ?_
  intro machine value after henv hvalue
  have hget : env.get? name = some value := henv ▸ get?_of_evaluate_symbol hvalue
  cases value with
  | operation operation =>
    obtain ⟨identity, action⟩ := operation
    obtain ⟨what, rfl⟩ := Vocabulary.exists_standard_of_offers (hover name _ hget)
    have hwhat : what ∉ Action.Standard.writers := fun hmem => hwrites _ hget what hmem rfl
    exact (Leaves.report _).bind fun _ => Action.Standard.perform_leaves hwhat hargs
  | _ => exact .raise _

theorem quiet_leaves {env : Environment} (hover : env.Over Vocabulary.standard.Offers) :
    ∀ (depth : Nat) (e : Expression), e.Quiet env → Leaves env (evaluate depth e)
  | 0, _, _ => fun _ _ _ _ h => nomatch h
  | _ + 1, .number _ _ _, _ => .pure _
  | _ + 1, .string _ _, _ => .pure _
  | depth + 1, .symbol name p, _ => evaluate_symbol_leaves (depth + 1) env name p
  | _ + 1, .list [] _, _ => .pure _
  | depth + 1, .list (_ :: _) _, hquiet =>
    evaluate_list_leaves hover hquiet fun e he => quiet_leaves hover depth e (hquiet.item (List.mem_cons_of_mem _ he))

/-- **What a called function writes never reaches its caller.** An expression that applies no writer itself leaves the
environment exactly as it was, whether it ends with a value or an error and whatever the functions do that it calls. -/
theorem evaluate_leaves {depth : Nat} {e : Expression} {machine after : Machine} {outcome : Except EvalError Value}
    (hover : machine.env.Over Vocabulary.standard.Offers) (hquiet : e.Quiet machine.env)
    (h : (evaluate depth e).start machine = some (outcome, after)) : after.env = machine.env :=
  quiet_leaves hover depth e hquiet machine outcome after rfl h

/-- A function that assigns, loops and defines before it fails. Its body writes where it runs, and the call of it does
not. -/
theorem evaluate_leaves_failing_call :
    let p : Position := ⟨1, 1⟩
    let body : Expression := .list [.symbol "prog" p,
      .list [.symbol "set" p, .string "out" p, .symbol "x" p] p,
      .list [.symbol "loop" p, .string "out" p, .number .one "1" p, .number .one "1" p, .symbol "out" p] p,
      .list [.symbol "def" p, .string "F" p, .string "y" p, .symbol "y" p] p,
      .symbol "lost" p] p
    let e : Expression := .list [.symbol "prog" p, .list [.symbol "call" p, .string "F" p, .number .one "1" p] p] p
    let machine : Machine := Machine.mk (Vocabulary.standard.environment.define "F"
      (.host ⟨⟨0, 9⟩, .function "x" body⟩)) 0 10 []
    machine.env.Over Vocabulary.standard.Offers ∧ e.Quiet machine.env ∧
      ((evaluate 6 e).start machine).map (·.1) = some (.error (.unboundSymbol "lost" p)) ∧
      ((evaluate 4 body).start { machine with env := machine.env.define "x" .nil }).map
        (fun (_, after) => after.env.contains "out") = some true ∧
      ((evaluate 6 e).start machine).map (·.2.env) = some machine.env := by
  intro p body e machine
  have hover : machine.env.Over Vocabulary.standard.Offers :=
    (Vocabulary.environment_over .standard).define "F" nofun
  have hprog : machine.env.get? "prog" = some (.operation ⟨⟨0, 0⟩, .standard .sequence⟩) := by decide +kernel
  have hcall : machine.env.get? "call" = some (.operation ⟨⟨0, 8⟩, .standard .callFunction⟩) := by decide +kernel
  have hquiet : e.Quiet machine.env := by
    intro head arguments q hn
    simp only [e, Expression.hasNode_list_iff, Expression.hasNode_symbol_iff, Expression.hasNode_string_iff,
      Expression.hasNode_number_iff, List.mem_cons, List.not_mem_nil, or_false, exists_eq_or_imp, exists_eq_left,
      Expression.list.injEq, List.cons.injEq, reduceCtorEq, false_or] at hn
    rcases hn with ⟨⟨rfl, _⟩, _⟩ | ⟨⟨rfl, _⟩, _⟩
    · refine ⟨"prog", p, rfl, fun operation hget => ?_⟩
      obtain rfl := Value.operation.inj (Option.some.inj (hprog.symm.trans hget))
      decide
    · refine ⟨"call", p, rfl, fun operation hget => ?_⟩
      obtain rfl := Value.operation.inj (Option.some.inj (hcall.symm.trans hget))
      decide
  have hrun : ((evaluate 6 e).start machine).map (·.1) = some (.error (.unboundSymbol "lost" p)) := by
    decide +kernel
  have hbody : ((evaluate 4 body).start { machine with env := machine.env.define "x" .nil }).map
      (fun (_, after) => after.env.contains "out") = some true := by decide +kernel
  refine ⟨hover, hquiet, hrun, hbody, ?_⟩
  obtain ⟨⟨outcome, after⟩, h, _⟩ := Option.map_eq_some_iff.1 hrun
  rw [h]
  exact congrArg some (evaluate_leaves hover hquiet h)

end SExprLang
