import SExprLang.Proofs.Evaluation.Agreement
import SExprLang.Proofs.Syntax.Unplaced
import SExprLang.Vocabulary.Lemmas

/-!
# Positions do not matter

A position goes into an error and nowhere else. What a run shows is compared without places: `Value.unplaced` forgets the
positions inside the bodies of functions, `EvalError.unplaced` the position that an error names and `Environment.unplaced`
the positions inside everything that is bound. With the standard vocabulary, expressions that are equal without places
then evaluate alike in environments that are (`evaluate_unplaced`).
-/

namespace SExprLang

/-! ## Values, errors and environments without places -/

/-- A host object without the places of a function's body. A body at another place is another creation, so the identity
of a function is forgotten too. -/
def HostObject.unplaced : HostObject → HostObject
  | ⟨_, .function parameter body⟩ => ⟨default, .function parameter body.unplaced⟩
  | object => object

/-- A value without places. An operation is what it performs, whichever creation it is. -/
def Value.unplaced : Value → Value
  | .operation called => .operation ⟨default, called.action⟩
  | .host object => .host object.unplaced
  | value => value

/-- An error without its place. -/
def EvalError.unplaced : EvalError → EvalError
  | unboundSymbol name _ => unboundSymbol name ⟨1, 1⟩
  | notOperation kind expression _ => notOperation kind expression ⟨1, 1⟩
  | notNumeral value expression _ => notNumeral value expression ⟨1, 1⟩
  | wrongKind target kind expression _ => wrongKind target kind expression ⟨1, 1⟩
  | missingArgument => missingArgument
  | operation message => operation message

namespace Environment

/-- The environment with every value without places. -/
def unplaced (env : Environment) : Environment where
  bindings := env.bindings.map fun binding => (binding.1, binding.2.unplaced)
  ordered := by exact List.pairwise_map.2 env.ordered

theorem get?_unplaced (env : Environment) (name : String) :
    env.unplaced.get? name = (env.get? name).map Value.unplaced := by
  have h (bindings : List (String × Value)) :
      (bindings.map fun binding => (binding.1, binding.2.unplaced)).lookup name =
        (bindings.lookup name).map Value.unplaced := by
    induction bindings with
    | nil => rfl
    | cons binding rest ih =>
      rw [List.map_cons, lookup_binding, lookup_binding, ih]
      split <;> rfl
  exact h env.bindings

theorem unplaced_define (env : Environment) (name : String) (value : Value) :
    (env.define name value).unplaced = env.unplaced.define name value.unplaced := by
  refine ext_get? fun other => ?_
  rw [get?_unplaced, get?_define, get?_define, get?_unplaced]
  split <;> rfl

end Environment

/-- What a run shows apart from places: its outcome and the environment that it leaves. -/
def Eval.unplaced : Option (Except EvalError Value × Machine) → Option (Except EvalError Value × Environment)
  | none => none
  | some (.ok value, machine) => some (.ok value.unplaced, machine.env.unplaced)
  | some (.error error, machine) => some (.error error.unplaced, machine.env.unplaced)

/-! ## Equality without places is a likeness -/

namespace Likeness

/-- Everything is alike that is equal without places, and the operations are of the standard vocabulary. -/
def unplaced : Likeness Unit where
  expression e e' := e.unplaced = e'.unplaced
  name _ := True
  text _ := True
  operation o o' := o.action = o'.action ∧ Vocabulary.standard.Offers o.action
  object a b := a.unplaced = b.unplaced
  environment _ env env' := env.unplaced = env'.unplaced ∧ env.Over Vocabulary.standard.Offers
  supply _ _ := True
  error x y := x.unplaced = y.unplaced

theorem unplaced_of_values {v v' : Value} (h : unplaced.Values v v') : v.unplaced = v'.unplaced := by
  cases h with
  | operation h => exact congrArg (fun action => Value.operation ⟨default, action⟩) h.1
  | host h => exact congrArg Value.host h
  | _ => rfl

theorem values_of_unplaced {v v' : Value} (h : v.unplaced = v'.unplaced)
    (hover : ∀ operation, v = .operation operation → Vocabulary.standard.Offers operation.action) :
    unplaced.Values v v' := by
  cases v <;> cases v' <;> simp only [Value.unplaced, reduceCtorEq, Value.bool.injEq, Value.number.injEq,
    Value.string.injEq, Value.numbers.injEq, Value.strings.injEq, Value.operation.injEq, Value.host.injEq,
    Operation.mk.injEq, true_and] at h
  case nil.nil => exact .nil
  case bool.bool => exact h ▸ .bool _
  case number.number => exact h ▸ .number _
  case string.string => exact h ▸ .string trivial
  case numbers.numbers => exact h ▸ .numbers _
  case strings.strings => exact h ▸ .strings _
  case operation.operation => exact .operation ⟨h, hover _ rfl⟩
  case host.host => exact .host h

theorem roots_of_unplaced {e e' : Expression} (h : e.unplaced = e'.unplaced) : unplaced.Roots e e' := by
  cases e <;> cases e' <;> simp only [Expression.unplaced, reduceCtorEq, Expression.symbol.injEq,
    Expression.number.injEq, Expression.string.injEq, Expression.list.injEq, and_true] at h
  case symbol.symbol => exact h ▸ .symbol _ _ trivial
  case number.number => exact h.1 ▸ .number _ _ _ _ _
  case string.string => exact h ▸ .string _ _ trivial
  case list.list => exact .list _ _ (Expression.unplacedItems_eq h)

theorem contents_of_unplaced {a b : HostObject} (h : a.unplaced = b.unplaced) :
    unplaced.Contents a.content b.content := by
  obtain ⟨i, content⟩ := a
  obtain ⟨j, content'⟩ := b
  cases content <;> cases content' <;> simp only [HostObject.unplaced, reduceCtorEq, HostObject.mk.injEq,
    HostContent.text.injEq, HostContent.integer.injEq, HostContent.function.injEq, and_false, true_and] at h
  case text.text => exact h.2 ▸ .text _
  case integer.integer => exact h.2 ▸ .integer _
  case function.function => exact h.1 ▸ .function _ h.2

theorem environment_unplaced_define {env env' : Environment} {v v' : Value} (h : unplaced.environment () env env')
    (hv : unplaced.Values v v') (name : String) : unplaced.environment () (env.define name v) (env'.define name v') := by
  obtain ⟨henv, hover⟩ := h
  refine ⟨?_, hover.define name (hv.offered fun _ _ h => h.2)⟩
  rw [Environment.unplaced_define, Environment.unplaced_define, henv, unplaced_of_values hv]

theorem unplaced_lawful : unplaced.Lawful where
  roots := roots_of_unplaced
  render := Expression.render_eq_of_unplaced
  text_name _ := trivial
  action h := ⟨h.1, keeps_of_offers (fun _ => trivial) (by decide) h.2⟩
  contents := contents_of_unplaced
  lookup := by
    rintro w env env' s ⟨henv, hover⟩ _
    have hget : (env.get? s).map Value.unplaced = (env'.get? s).map Value.unplaced := by
      rw [← Environment.get?_unplaced, henv, Environment.get?_unplaced]
    have hoffers := hover s
    generalize env.get? s = found, env'.get? s = found' at hget hoffers ⊢
    cases found <;> cases found' <;> simp only [Option.map_none, Option.map_some, reduceCtorEq, Option.some.injEq] at hget
    · exact .none
    · exact .some (values_of_unplaced hget fun operation h => hoffers operation (congrArg some h))
  define h _ hv := environment_unplaced_define h hv _
  scope s _ _ h hv := ⟨(), environment_unplaced_define h hv s⟩
  create parameter _ _ _ h := congrArg (fun body => (⟨default, .function parameter body⟩ : HostObject)) h
  supply_next _ := trivial
  unboundSymbol _ := rfl
  notOperation kind h := by
    cases roots_of_unplaced h with
    | list _ _ hitems =>
      cases hitems with
      | cons hhead _ => exact congrArg (EvalError.notOperation kind · ⟨1, 1⟩) (Expression.render_eq_of_unplaced hhead)
  notNumeral value h := congrArg (EvalError.notNumeral value · ⟨1, 1⟩) (Expression.render_eq_of_unplaced h)
  wrongKind target kind h := congrArg (EvalError.wrongKind target kind · ⟨1, 1⟩) (Expression.render_eq_of_unplaced h)
  missingArgument := rfl
  operation_error _ := rfl

end Likeness

/-! ## Evaluation without places -/

/-- **Positions never influence what a program computes.** At every depth, expressions that are equal without places end
alike in environments that are: both do not end, or both have the same value, or the same error, without places, and leave
the same environment without places, which is again over the standard vocabulary. -/
theorem evaluate_unplaced (depth : Nat) {e e' : Expression} {machine machine' : Machine} (he : e.unplaced = e'.unplaced)
    (henv : machine.env.unplaced = machine'.env.unplaced) (hover : machine.env.Over Vocabulary.standard.Offers) :
    Eval.unplaced ((evaluate depth e).start machine) = Eval.unplaced ((evaluate depth e').start machine') ∧
      ∀ outcome after, (evaluate depth e).start machine = some (outcome, after) →
        after.env.Over Vocabulary.standard.Offers := by
  have hends := Likeness.unplaced_lawful.evaluators depth () e e' he machine machine' ⟨⟨henv, hover⟩, trivial⟩
  generalize (evaluate depth e).start machine = r, (evaluate depth e').start machine' = s at hends ⊢
  cases hends with
  | never => exact ⟨rfl, nofun⟩
  | value hv hm =>
    obtain ⟨⟨hafter, hover'⟩, _⟩ := hm
    refine ⟨?_, ?_⟩
    · simp only [Eval.unplaced, Likeness.unplaced_of_values hv, hafter]
    · rintro _ _ ⟨⟩
      exact hover'
  | @error x y _ _ hxy hm =>
    obtain ⟨⟨hafter, hover'⟩, _⟩ := hm
    have herror : x.unplaced = y.unplaced := hxy
    refine ⟨?_, ?_⟩
    · simp only [Eval.unplaced, herror, hafter]
    · rintro _ _ ⟨⟩
      exact hover'

/-- A function whose body, like the call of it, stands at other places on the two sides: both calls fail, each at the
symbol of its own body. -/
theorem evaluate_unplaced_call :
    let call (p : Position) : Expression := .list [.symbol "call" p, .string "F" p, .number .one "1" p] p
    let machine (p : Position) (serial : Nat) : Machine := Machine.mk (Vocabulary.standard.environment.define "F"
      (.host ⟨⟨0, serial⟩, .function "x" (.symbol "y" p)⟩)) 0 serial []
    (call ⟨1, 1⟩).unplaced = (call ⟨7, 3⟩).unplaced ∧
      (machine ⟨2, 5⟩ 9).env.unplaced = (machine ⟨4, 1⟩ 12).env.unplaced ∧
      (machine ⟨2, 5⟩ 9).env.Over Vocabulary.standard.Offers ∧
      ((evaluate 3 (call ⟨1, 1⟩)).start (machine ⟨2, 5⟩ 9)).map (·.1) = some (.error (.unboundSymbol "y" ⟨2, 5⟩)) ∧
      ((evaluate 3 (call ⟨7, 3⟩)).start (machine ⟨4, 1⟩ 12)).map (·.1) = some (.error (.unboundSymbol "y" ⟨4, 1⟩)) ∧
      Eval.unplaced ((evaluate 3 (call ⟨1, 1⟩)).start (machine ⟨2, 5⟩ 9)) =
        Eval.unplaced ((evaluate 3 (call ⟨7, 3⟩)).start (machine ⟨4, 1⟩ 12)) := by
  intro call machine
  have he : (call ⟨1, 1⟩).unplaced = (call ⟨7, 3⟩).unplaced := rfl
  have henv : (machine ⟨2, 5⟩ 9).env.unplaced = (machine ⟨4, 1⟩ 12).env.unplaced := by
    rw [Environment.unplaced_define, Environment.unplaced_define]
    rfl
  have hover : (machine ⟨2, 5⟩ 9).env.Over Vocabulary.standard.Offers :=
    (Vocabulary.environment_over .standard).define "F" nofun
  exact ⟨he, henv, hover, rfl, rfl, (evaluate_unplaced 3 he henv hover).1⟩

end SExprLang
