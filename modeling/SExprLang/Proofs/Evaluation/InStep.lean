import Mathlib.Data.List.Forall2
import SExprLang.Evaluation.Lemmas

/-!
# Two runs in step

`InStep state error value a b` says that the runs `a` and `b`, started in machines that `state` relates, end together: both
never, both with values that `value` relates or both with errors that `error` relates, and in machines that `state`
relates again. A run is put together from smaller ones, and so is a pair of runs in step: the rules here follow the
constructions of runs, and `InStep.bind` is the one that the others rest on.
-/

namespace SExprLang.Eval

/-- How two runs in step end. -/
inductive Ends {α β : Type} (state : Machine → Machine → Prop) (error : EvalError → EvalError → Prop)
    (value : α → β → Prop) :
    Option (Except EvalError α × Machine) → Option (Except EvalError β × Machine) → Prop
  | never : Ends state error value none none
  | value {a : α} {b : β} {m n : Machine} : value a b → state m n →
      Ends state error value (some (.ok a, m)) (some (.ok b, n))
  | error {x y : EvalError} {m n : Machine} : error x y → state m n →
      Ends state error value (some (.error x, m)) (some (.error y, n))

theorem Ends.isSome_iff {α β : Type} {state : Machine → Machine → Prop} {error : EvalError → EvalError → Prop}
    {value : α → β → Prop} {r : Option (Except EvalError α × Machine)} {s : Option (Except EvalError β × Machine)}
    (h : Ends state error value r s) : r.isSome ↔ s.isSome := by
  cases h <;> simp

/-- Runs that end alike, the second as a third one but for its state. -/
theorem Ends.trans_eq {α β : Type} {state₁ state₂ state : Machine → Machine → Prop} {value : α → β → Prop}
    {r : Option (Except EvalError α × Machine)} {s t : Option (Except EvalError β × Machine)}
    (h₁ : Ends state₁ Eq value r s) (h₂ : Ends state₂ Eq Eq s t)
    (hstate : ∀ l m n, state₁ l m → state₂ m n → state l n) : Ends state Eq value r t := by
  cases h₁ with
  | never =>
    cases h₂ with
    | never => exact .never
  | value hv hs₁ =>
    cases h₂ with
    | value heq hs₂ => exact .value (heq ▸ hv) (hstate _ _ _ hs₁ hs₂)
  | error hx hs₁ =>
    cases h₂ with
    | error heq hs₂ => exact .error (hx.trans heq) (hstate _ _ _ hs₁ hs₂)

/-- Two runs that end alike whenever they start alike. -/
def InStep {α β : Type} (state : Machine → Machine → Prop) (error : EvalError → EvalError → Prop)
    (value : α → β → Prop) (a : Eval α) (b : Eval β) : Prop :=
  ∀ m n, state m n → Ends state error value (a.start m) (b.start n)

namespace InStep

variable {α β γ δ : Type} {state : Machine → Machine → Prop} {error : EvalError → EvalError → Prop}
  {value : α → β → Prop} {result : γ → δ → Prop}

theorem pure {a : α} {b : β} (h : value a b) : InStep state error value (pure a) (pure b) :=
  fun _ _ hs => .value h hs

theorem raise {x y : EvalError} (h : error x y) : InStep state error value (raise x) (raise y) :=
  fun _ _ hs => .error h hs

theorem exhausted : InStep state error value exhausted exhausted := fun _ _ _ => .never

theorem mono {weaker : α → β → Prop} {a : Eval α} {b : Eval β} (hab : InStep state error value a b)
    (h : ∀ x y, value x y → weaker x y) : InStep state error weaker a b := by
  intro m n hs
  have hends := hab m n hs
  generalize a.start m = r, b.start n = s at hends ⊢
  cases hends with
  | never => exact .never
  | value hv hs' => exact .value (h _ _ hv) hs'
  | error he hs' => exact .error he hs'

/-- One run after another stays in step if both parts do. -/
theorem bind {a : Eval α} {b : Eval β} {f : α → Eval γ} {g : β → Eval δ} (hab : InStep state error value a b)
    (hfg : ∀ x y, value x y → InStep state error result (f x) (g y)) :
    InStep state error result (a >>= f) (b >>= g) := by
  intro m n hs
  rw [start_bind, start_bind]
  have hends := hab m n hs
  generalize a.start m = r, b.start n = s at hends ⊢
  cases hends with
  | never => exact .never
  | value hv hs' => exact hfg _ _ hv _ _ hs'
  | error he hs' => exact .error he hs'

theorem report {events events' : List Event}
    (h : ∀ m n : Machine, state m n →
      state { m with events := events.reverse ++ m.events } { n with events := events'.reverse ++ n.events }) :
    InStep state error Eq (report events) (report events') :=
  fun m n hs => .value rfl (h m n hs)

/-! ## Lists of runs -/

variable {ι κ : Type} {item : ι → κ → Prop}

/-- A fold over lists that agree item by item, with accumulators that are related all along. -/
theorem foldlM {xs : List ι} {ys : List κ} {f : α → ι → Eval α} {g : β → κ → Eval β} (hxs : List.Forall₂ item xs ys)
    (hfg : ∀ a b, value a b → ∀ x y, item x y → InStep state error value (f a x) (g b y)) {a : α} {b : β}
    (hab : value a b) : InStep state error value (xs.foldlM f a) (ys.foldlM g b) := by
  induction hxs generalizing a b with
  | nil => exact pure hab
  | cons hxy _ ih =>
    rw [List.foldlM_cons, List.foldlM_cons]
    exact bind (hfg a b hab _ _ hxy) fun _ _ h => ih h

/-- The results for lists that agree item by item are the same if they are so for each pair of items. -/
theorem mapM {xs : List ι} {ys : List κ} {f : ι → Eval α} {g : κ → Eval α} (hxs : List.Forall₂ item xs ys)
    (hfg : ∀ x y, item x y → InStep state error Eq (f x) (g y)) :
    InStep state error Eq (xs.mapM f) (ys.mapM g) := by
  induction hxs with
  | nil => exact pure rfl
  | cons hxy _ ih =>
    rw [List.mapM_cons, List.mapM_cons]
    refine bind (hfg _ _ hxy) ?_
    rintro a _ rfl
    refine bind ih ?_
    rintro as _ rfl
    exact pure rfl

end InStep

end SExprLang.Eval
