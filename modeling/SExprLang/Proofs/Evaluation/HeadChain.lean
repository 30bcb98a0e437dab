import SExprLang.Evaluation.Evaluate
import SExprLang.Evaluation.Lemmas
import SExprLang.Vocabulary.Lemmas

/-!
# Evaluation without operations

A list evaluates its head before anything else. Where no name is bound to an operation the head cannot be one, so nothing
is ever performed, and of an expression only the chain of heads matters: its first item, the first item of that one and so
on, down to an atom or an empty list. What this innermost head comes to decides the outcome (`evaluate_headOutcome`), and
the error, if it is one, points at it and not at a head further out.
-/

namespace SExprLang

namespace Expression

/-! ## The chain of heads -/

/-- The atom or empty list at the end of the chain of heads. -/
def innermostHead : Expression → Expression
  | list (head :: _) _ => head.innermostHead
  | e => e

/-- The number of expressions in the chain of heads. -/
def headLevels : Expression → Nat
  | list (head :: _) _ => head.headLevels + 1
  | _ => 1

/-- What an atom or an empty list comes to by itself: the literal, what the symbol is bound to, or nil. -/
def ownOutcome (env : Environment) : Expression → Except EvalError Value
  | symbol name position =>
    match env.get? name with
    | some value => .ok value
    | none => .error (.unboundSymbol name position)
  | number value _ _ => .ok (.number value)
  | string value _ => .ok (.string value)
  | list _ _ => .ok .nil

/-- What an expression comes to where nothing is an operation: its own value if it is an atom or an empty list, and else
the error that the innermost head has or is. -/
def headOutcome (env : Environment) (e : Expression) : Except EvalError Value :=
  match e.innermostHead.ownOutcome env with
  | .error error => .error error
  | .ok value =>
    if e.innermostHead = e then .ok value
    else .error (.notOperation value.kind e.innermostHead.render e.innermostHead.position)

theorem innermostHead_ne_list (head : Expression) (arguments : List Expression) (p : Position) :
    ∀ e : Expression, e.innermostHead ≠ list (head :: arguments) p
  | list (first :: _) _ => innermostHead_ne_list head arguments p first
  | list [] _ | symbol _ _ | number _ _ _ | string _ _ => nofun

variable {env : Environment}

/-- The step from a head to the list: the error of the head, or else the error that its value is not an operation. -/
theorem headOutcome_list (head : Expression) (arguments : List Expression) (p : Position) :
    headOutcome env (list (head :: arguments) p) =
      match headOutcome env head with
      | .error error => .error error
      | .ok value => .error (.notOperation value.kind head.render head.position) := by
  have hne : head.innermostHead ≠ list (head :: arguments) p := innermostHead_ne_list head arguments p head
  simp only [headOutcome, innermostHead]
  cases head.innermostHead.ownOutcome env with
  | error error => rfl
  | ok value =>
    by_cases hend : head.innermostHead = head
    · simp only [hend, if_true]
      rw [hend] at hne
      rw [if_neg hne]
    · simp only [hend, hne, if_false]

/-- Without operations there are none among the outcomes. -/
theorem headOutcome_ne_operation (hfree : ∀ name operation, env.get? name ≠ some (.operation operation))
    (e : Expression) (operation : Operation) : headOutcome env e ≠ .ok (.operation operation) := by
  have hown : e.innermostHead.ownOutcome env ≠ .ok (.operation operation) := by
    cases e.innermostHead with
    | symbol name p =>
      simp only [ownOutcome]
      intro h
      cases hget : env.get? name with
      | none =>
        rw [hget] at h
        cases h
      | some value =>
        rw [hget] at h
        obtain rfl := Except.ok.inj h
        exact hfree name operation hget
    | _ =>
      intro h
      cases h
  intro h
  rw [headOutcome] at h
  split at h
  · cases h
  · rename_i value hvalue
    split at h
    · exact hown (hvalue.trans h)
    · cases h

end Expression

/-! ## The outcome -/

open Eval

/-- An evaluation without operations follows the chain of heads and touches nothing. -/
theorem start_evaluate_headOutcome {machine : Machine}
    (hfree : ∀ name operation, machine.env.get? name ≠ some (.operation operation)) :
    ∀ (depth : Nat) (e : Expression), e.headLevels ≤ depth →
      (evaluate depth e).start machine = some (e.headOutcome machine.env, machine)
  | 0, e, h => by
    cases e with
    | list items p => cases items <;> simp [Expression.headLevels] at h
    | _ => simp [Expression.headLevels] at h
  | _ + 1, .number _ _ _, _ => by simp [evaluate, Expression.headOutcome, Expression.innermostHead, Expression.ownOutcome]
  | _ + 1, .string _ _, _ => by simp [evaluate, Expression.headOutcome, Expression.innermostHead, Expression.ownOutcome]
  | _ + 1, .list [] _, _ => by simp [evaluate, Expression.headOutcome, Expression.innermostHead, Expression.ownOutcome]
  | depth + 1, .symbol name p, _ => by
    simp only [evaluate, start_bind, start_lookup, Expression.headOutcome, Expression.innermostHead,
      Expression.ownOutcome, if_true]
    cases machine.env.get? name <;> rfl
  | depth + 1, .list (head :: arguments) p, h => by
    have hlevels : head.headLevels ≤ depth := by
      rw [Expression.headLevels] at h
      omega
    have hhead := start_evaluate_headOutcome hfree depth head hlevels
    have hnone := Expression.headOutcome_ne_operation hfree head
    rw [Expression.headOutcome_list, evaluate, start_bind, hhead]
    cases hvalue : head.headOutcome machine.env with
    | error error => rfl
    | ok value =>
      cases value with
      | operation operation => exact absurd hvalue (hnone operation)
      | _ => rfl

/-- **Without operations the chain of heads decides.** If no name is bound to an operation, every evaluation ends and
changes nothing. Its outcome is that of the innermost head: the symbol is not bound, or the expression is that atom or
empty list itself and has its value, or the value is found at the head of a list and is not an operation. Nothing else in
the expression has an influence: any other with the same innermost head, at the head of a list if and only if it is there
in this one, ends in the same way. -/
theorem evaluate_headOutcome {machine : Machine}
    (hfree : ∀ name operation, machine.env.get? name ≠ some (.operation operation)) (e : Expression) (depth : Nat)
    (hdepth : e.headLevels ≤ depth) :
    (evaluate depth e).start machine = some (e.headOutcome machine.env, machine) ∧
    ∀ (e' : Expression) (depth' : Nat), e'.innermostHead = e.innermostHead →
      (e'.innermostHead = e' ↔ e.innermostHead = e) → e'.headLevels ≤ depth' →
      (evaluate depth' e').start machine = (evaluate depth e).start machine := by
  have hrun := start_evaluate_headOutcome hfree depth e hdepth
  refine ⟨hrun, fun e' depth' hinnermost hself hdepth' => ?_⟩
  rw [hinnermost] at hself
  have hsame : e'.headOutcome machine.env = e.headOutcome machine.env := by
    simp only [Expression.headOutcome, hinnermost, hself]
  rw [hrun, start_evaluate_headOutcome hfree depth' e' hdepth', hsame]

/-- Three lists around a symbol that is bound to a string: the error is at the symbol, and other arguments in other lists
make no difference. -/
theorem evaluate_headOutcome_nested :
    let p : Position := ⟨1, 4⟩
    let e : Expression := .list [.list [.list [.symbol "X" p, .symbol "lost" p] ⟨1, 3⟩, .number .one "1" p] ⟨1, 2⟩] ⟨1, 1⟩
    let e' : Expression := .list [.symbol "X" p, .list [.symbol "other" p] p] ⟨1, 1⟩
    let machine : Machine := Machine.mk (Environment.ofList [("X", .string "text")]) 0 0 []
    let result : Except EvalError Value := .error (.notOperation .string "X" p)
    (∀ name operation, machine.env.get? name ≠ some (.operation operation)) ∧
      e.headLevels = 4 ∧ (evaluate evaluationDepth e).start machine = some (result, machine) ∧
      (evaluate 2 e').start machine = some (result, machine) := by
  intro p e e' machine result
  have hfree : ∀ name operation, machine.env.get? name ≠ some (.operation operation) := by
    intro name operation hget
    rcases Environment.get?_extend hget with hmem | hempty
    · simp at hmem
    · cases hempty
  obtain ⟨hrun, hothers⟩ := evaluate_headOutcome hfree e evaluationDepth (by decide)
  have hresult : e.headOutcome machine.env = result := rfl
  rw [hresult] at hrun
  refine ⟨hfree, rfl, hrun, ?_⟩
  rw [hothers e' 2 (by decide) (by decide) (by decide), hrun]

end SExprLang
