import SExprLang.Proofs.Evaluation.Depth
import SExprLang.Proofs.Evaluation.Guarantee

/-!
# Programs that only read

A run reads if all it does depends on the environment alone: in one environment it always has the same outcome, and it
changes nothing but the events (`Eval.Reads`). Where no bound operation writes, every evaluation reads, and so a program
can be evaluated again and again with the same outcome (`evaluate_repeatable`). Operations are values, so a writer must
not come up anywhere either, not as a computed head, as an argument or as the result of a function; and a call works in a
copy of the environment, with its parameter bound to such a value.
-/

namespace SExprLang

namespace Eval

/-- In the environment the run has one outcome, none if it does not end, and it changes nothing but the events. -/
def Reads {α : Type} (env : Environment) (run : Eval α) (outcome : Option (Except EvalError α)) : Prop :=
  ∀ machine, machine.env = env →
    ∃ events, run.start machine = outcome.map fun ended => (ended, { machine with events := events })

namespace Reads

variable {α β : Type} {env : Environment}

theorem ofExcept (outcome : Except EvalError α) : Reads env (ofExcept outcome) (some outcome) :=
  fun machine _ => ⟨machine.events, rfl⟩

theorem pure (v : α) : Reads env (pure v) (some (.ok v)) := .ofExcept (.ok v)

theorem raise (error : EvalError) : Reads env (raise error : Eval α) (some (.error error)) := .ofExcept (.error error)

theorem exhausted : Reads env (exhausted : Eval α) none := fun machine _ => ⟨machine.events, rfl⟩

theorem lookup (name : String) : Reads env (lookup name) (some (.ok (env.get? name))) := by
  rintro machine rfl
  exact ⟨machine.events, rfl⟩

theorem report (events : List Event) : Reads env (report events) (some (.ok ())) :=
  fun machine _ => ⟨events.reverse ++ machine.events, rfl⟩

section

variable {run : Eval α} {next : α → Eval β}

theorem bind {v : α} {outcome : Option (Except EvalError β)} (h : Reads env run (some (.ok v)))
    (hnext : Reads env (next v) outcome) : Reads env (run >>= next) outcome := by
  intro machine henv
  obtain ⟨first, hrun⟩ := h machine henv
  rw [start_bind, hrun]
  exact hnext { machine with events := first } henv

theorem bind_error {error : EvalError} (h : Reads env run (some (.error error))) :
    Reads env (run >>= next) (some (.error error)) := by
  intro machine henv
  obtain ⟨events, hrun⟩ := h machine henv
  refine ⟨events, ?_⟩
  rw [start_bind, hrun]
  rfl

theorem bind_none (h : Reads env run none) : Reads env (run >>= next) none := by
  intro machine henv
  obtain ⟨events, hrun⟩ := h machine henv
  refine ⟨events, ?_⟩
  rw [start_bind, hrun]
  rfl

end

/-- What a run in a scope reads it reads in the environment with the scope's binding. -/
theorem inScope {name : String} {v : Value} {run : Eval α} {outcome : Option (Except EvalError α)}
    (h : Reads (env.define name v) run outcome) : Reads env (inScope name v run) outcome := by
  rintro machine rfl
  obtain ⟨events, hrun⟩ := h { machine with env := machine.env.define name v } rfl
  refine ⟨events, ?_⟩
  rw [start_inScope, hrun, Option.map_map]
  rfl

end Reads

end Eval

open Eval

/-- Reading in a given environment is a guarantee. -/
def Guarantee.reading {offered : Action → Prop} (env : Environment) (hover : env.Over offered) : Guarantee offered where
  Holds result run := ∃ outcome, Reads env run outcome ∧ ∀ v, outcome = some (.ok v) → result v
  pure hv := ⟨_, .pure _, by rintro _ ⟨⟩; exact hv⟩
  raise error := ⟨_, .raise error, nofun⟩
  bind := by
    rintro α β first result run next ⟨outcome, hrun, hfirst⟩ hnext
    match outcome with
    | none => exact ⟨none, hrun.bind_none, nofun⟩
    | some (.error error) => exact ⟨some (.error error), hrun.bind_error, nofun⟩
    | some (.ok v) =>
      obtain ⟨ended, hended, hresult⟩ := hnext v (hfirst v rfl)
      exact ⟨ended, hrun.bind hended, hresult⟩
  lookup name := by
    refine ⟨_, .lookup name, ?_⟩
    rintro _ ⟨⟩ v hv operation rfl
    exact hover name operation hv
  report events := ⟨_, .report events, fun _ _ => trivial⟩

/-! ## Programs without writers -/

/-- The actions of the standard, feature and query families that do not write. -/
def Action.IsReader : Action → Prop
  | standard action => action ∉ Standard.writers
  | feature action => action ≠ .assignStrings
  | query _ => True
  | reflective _ => False

namespace Action.IsReader

variable {action : Action}

theorem not_writes (h : action.IsReader) : ¬ action.Writes := by
  cases action with
  | standard _ => exact h
  | feature _ => exact h
  | query _ => exact id
  | reflective _ => exact h.elim

theorem ne_reflective (h : action.IsReader) (r : Action.Reflective) : action ≠ .reflective r := by
  rintro rfl
  exact h

end Action.IsReader

/-- Calling a function reads if evaluating its body does, in the environment of the call. -/
theorem Action.Standard.call_reads {offered : Action → Prop} {evaluate : Expression → Eval Value} {env : Environment}
    (hover : env.Over offered)
    (hbody : ∀ (env : Environment) (hover : env.Over offered) body,
      (Guarantee.reading env hover).HoldsOver (evaluate body))
    (name : String) {v : Value} (hv : v.Over offered) :
    (Guarantee.reading env hover).HoldsOver (call evaluate name v) := by
  refine Guarantee.bind _ (Guarantee.lookup _ name) fun found _ => ?_
  split
  · rename_i identity parameter body _
    obtain ⟨outcome, hreads, hresult⟩ := hbody (env.define parameter v) (hover.define parameter hv) body
    exact ⟨outcome, hreads.inScope, hresult⟩
  · exact Guarantee.raise _ _
  · exact Guarantee.raise _ _

/-- Without writers every evaluation reads, in every environment. -/
theorem evaluate_reads : ∀ (depth : Nat) (env : Environment) (hover : env.Over Action.IsReader) (e : Expression),
    (Guarantee.reading env hover).HoldsOver (evaluate depth e)
  | 0, _, _, _ => ⟨none, .exhausted, nofun⟩
  | _ + 1, _, _, .number _ _ _ => Guarantee.pure _ nofun
  | _ + 1, _, _, .string _ _ => Guarantee.pure _ nofun
  | depth + 1, _, _, .symbol name p => Guarantee.symbol_holds depth name p
  | _ + 1, _, _, .list [] _ => Guarantee.pure _ nofun
  | depth + 1, env, hover, .list (head :: arguments) p => by
    refine Guarantee.list_holds (evaluate_reads depth env hover head) fun action haction => ?_
    refine Guarantee.perform_holds (fun e _ => evaluate_reads depth env hover e) haction.ne_reflective
      (fun hwrites => absurd hwrites haction.not_writes) fun _ name v hv => ?_
    exact Action.Standard.call_reads hover (evaluate_reads depth) name hv

/-- **Programs without writers can be repeated.** If no bound operation writes, an evaluation that ends, with a value or
an error, leaves the environment exactly as it was, and evaluating the expression again in that environment, whatever
happened elsewhere in the meantime, ends with the same value or error and leaves it so again. -/
theorem evaluate_repeatable {depth : Nat} {e : Expression} {machine after : Machine} {outcome : Except EvalError Value}
    (hover : machine.env.Over Action.IsReader) (h : (evaluate depth e).start machine = some (outcome, after)) :
    after.env = machine.env ∧
    ∀ (again : Machine) (depth' : Nat), again.env = after.env → depth ≤ depth' →
      ∃ last, (evaluate depth' e).start again = some (outcome, last) ∧ last.env = machine.env := by
  obtain ⟨ended, hreads, _⟩ := evaluate_reads depth machine.env hover e
  obtain ⟨events, hrun⟩ := hreads machine rfl
  rw [h] at hrun
  -- The run has ended, so it has the outcome that every run in this environment has.
  obtain ⟨_, rfl, heq⟩ := Option.map_eq_some_iff.1 hrun.symm
  obtain ⟨rfl, rfl⟩ := Prod.mk.inj heq
  refine ⟨rfl, fun again depth' henv hle => ?_⟩
  obtain ⟨events', hagain⟩ := hreads again henv
  exact ⟨{ again with events := events' }, evaluate_below hle e again _ hagain, henv⟩

/-- A function that gives back its argument, called with an operation: the result is the head of a list. The second
evaluation is granted another depth and gives out other identities. -/
theorem evaluate_repeatable_computed_head :
    let p : Position := ⟨1, 1⟩
    let e : Expression := .list [.list [.symbol "call" p, .string "pick" p, .symbol "+" p] p,
      .number .one "1" p, .symbol "n" p] p
    let machine : Machine := Machine.mk (Environment.ofList [("+", .operation ⟨⟨0, 0⟩, .standard .sum⟩),
      ("call", .operation ⟨⟨0, 1⟩, .standard .callFunction⟩),
      ("pick", .host ⟨⟨0, 2⟩, .function "x" (.symbol "x" p)⟩), ("n", .number .one)]) 0 3 []
    let again : Machine := { machine with region := 1, serial := 20 }
    machine.env.Over Action.IsReader ∧
      ((evaluate 3 e).start machine).map (·.1) = some (.ok (.number (.ofInt 2))) ∧
      ((evaluate evaluationDepth e).start again).map (fun (outcome, last) => (outcome, last.env)) =
        some (.ok (.number (.ofInt 2)), machine.env) := by
  intro p e machine again
  have hover : machine.env.Over Action.IsReader := by
    intro name o hget
    rcases Environment.get?_extend hget with hmem | hempty
    · simp only [List.mem_cons, Prod.mk.injEq, Value.operation.injEq, reduceCtorEq, and_false, List.not_mem_nil,
        or_false] at hmem
      rcases hmem with ⟨_, rfl⟩ | ⟨_, rfl⟩
      · show Action.Standard.sum ∉ Action.Standard.writers
        decide
      · show Action.Standard.callFunction ∉ Action.Standard.writers
        decide
    · cases hempty
  have hrun : ((evaluate 3 e).start machine).map (·.1) = some (.ok (.number (.ofInt 2))) := by decide +kernel
  refine ⟨hover, hrun, ?_⟩
  obtain ⟨⟨outcome, after⟩, h, rfl⟩ := Option.map_eq_some_iff.1 hrun
  obtain ⟨henv, hagain⟩ := evaluate_repeatable hover h
  obtain ⟨last, hlast, hleft⟩ := hagain again evaluationDepth henv.symm (by decide)
  rw [hlast]
  exact congrArg (fun env => some (_, env)) hleft

end SExprLang
