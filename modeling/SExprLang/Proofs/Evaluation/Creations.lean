import SExprLang.Proofs.Evaluation.Agreement

/-!
# Which identities a run gives out does not matter

An identity only tells creations apart, and no action outside of the core vocabulary compares two of them. So an
expression ends alike in machines that bind the same names to the same values and differ in the identities they give out:
with the same values, but that the first creation of the one run stands for the first of the other, the second for the
second and so on (`evaluate_matched`).
-/

namespace SExprLang

/-- An action that a vocabulary other than the core one offers. -/
def Action.IsPlain (action : Action) : Prop := ∃ vocabulary : Vocabulary, vocabulary ≠ .core ∧ vocabulary.Offers action

theorem Environment.Over.isPlain {env : Environment} {vocabulary : Vocabulary} (h : env.Over vocabulary.Offers)
    (hcore : vocabulary ≠ .core) : env.Over Action.IsPlain :=
  fun name operation hget => ⟨vocabulary, hcore, h name operation hget⟩

/-! ## Equality up to creations -/

/-- The same identity, or the creations of the same number of two runs that give out `a` and `b` first. -/
def Identity.Matched (a b : Identity) (i j : Identity) : Prop :=
  i = j ∨ ∃ k, i = ⟨a.region, a.serial + k⟩ ∧ j = ⟨b.region, b.serial + k⟩

/-- The same value, up to creations. -/
inductive Value.Matched (a b : Identity) : Value → Value → Prop
  | same (value : Value) : Matched a b value value
  | operation {i j : Identity} (action : Action) : Identity.Matched a b i j →
      Matched a b (.operation ⟨i, action⟩) (.operation ⟨j, action⟩)
  | host {i j : Identity} (content : HostContent) : Identity.Matched a b i j →
      Matched a b (.host ⟨i, content⟩) (.host ⟨j, content⟩)

/-- The same names, bound to the same values up to creations. -/
def Environment.Matched (a b : Identity) (env env' : Environment) : Prop :=
  ∀ name, Option.Rel (Value.Matched a b) (env.get? name) (env'.get? name)

/-- Environments that answer every look-up alike are matched. -/
theorem Environment.matched_of_get? {a b : Identity} {env env' : Environment}
    (h : ∀ name, env.get? name = env'.get? name) : Environment.Matched a b env env' := by
  intro name
  rw [h name]
  cases env'.get? name with
  | none => exact .none
  | some value => exact .some (.same value)

theorem Environment.matched_self (a b : Identity) (env : Environment) : Environment.Matched a b env env :=
  matched_of_get? fun _ => rfl

theorem Environment.Matched.define {a b : Identity} {env env' : Environment} (h : Environment.Matched a b env env')
    (name : String) {v v' : Value} (hv : Value.Matched a b v v') :
    Environment.Matched a b (env.define name v) (env'.define name v') := by
  intro other
  rw [get?_define, get?_define]
  split
  · exact .some hv
  · exact h other

/-! ## It is a likeness -/

namespace Likeness

/-- Everything is alike that is the same up to creations, and the operations are plain. -/
def creations (a b : Identity) : Likeness Unit where
  expression e e' := e = e'
  name _ := True
  text _ := True
  operation o o' := Identity.Matched a b o.identity o'.identity ∧ o.action = o'.action ∧ o.action.IsPlain
  object x y := Identity.Matched a b x.identity y.identity ∧ x.content = y.content
  environment _ env env' := Environment.Matched a b env env' ∧ env.Over Action.IsPlain
  supply i j := ∃ k, i = ⟨a.region, a.serial + k⟩ ∧ j = ⟨b.region, b.serial + k⟩
  error x y := x = y

variable {a b : Identity}

theorem matched_of_values {v v' : Value} (h : (creations a b).Values v v') : Value.Matched a b v v' := by
  cases h with
  | @operation o o' h =>
    obtain ⟨i, action⟩ := o
    obtain ⟨j, action'⟩ := o'
    obtain ⟨hidentity, haction, _⟩ := h
    obtain rfl : action = action' := haction
    exact .operation action hidentity
  | @host x y h =>
    obtain ⟨i, content⟩ := x
    obtain ⟨j, content'⟩ := y
    obtain ⟨hidentity, hcontent⟩ := h
    obtain rfl : content = content' := hcontent
    exact .host content hidentity
  | _ => exact .same _

theorem values_of_matched {v v' : Value} (h : Value.Matched a b v v')
    (hplain : ∀ operation, v = .operation operation → operation.action.IsPlain) : (creations a b).Values v v' := by
  cases h with
  | same =>
    exact .refl (fun _ => trivial) (fun o ho => ⟨Or.inl rfl, rfl, hplain o ho⟩) fun _ _ => ⟨Or.inl rfl, rfl⟩
  | operation action h => exact .operation ⟨h, rfl, hplain _ rfl⟩
  | host content h => exact .host ⟨h, rfl⟩

theorem environment_matched_define {env env' : Environment} {v v' : Value} (h : (creations a b).environment () env env')
    (hv : (creations a b).Values v v') (name : String) :
    (creations a b).environment () (env.define name v) (env'.define name v') := by
  obtain ⟨henv, hover⟩ := h
  exact ⟨henv.define name (matched_of_values hv), hover.define name (hv.offered fun _ _ h => h.2.2)⟩

theorem creations_lawful (a b : Identity) : (creations a b).Lawful where
  roots := by
    rintro e _ rfl
    exact .refl (fun _ => trivial) (fun _ => trivial) fun _ _ _ _ _ => rfl
  render h := congrArg Expression.render h
  text_name _ := trivial
  action := by
    rintro o o' ⟨_, haction, vocabulary, hcore, hoffers⟩
    exact ⟨haction, keeps_of_offers (fun _ => trivial) hcore hoffers⟩
  contents := by
    rintro ⟨i, content⟩ ⟨j, content'⟩ ⟨_, hcontent⟩
    obtain rfl : content = content' := hcontent
    exact .refl fun _ _ _ => rfl
  lookup := by
    rintro w env env' s ⟨henv, hover⟩ _
    have hplain := hover s
    have hs := henv s
    generalize env.get? s = found, env'.get? s = found' at hs hplain ⊢
    cases hs with
    | none => exact .none
    | some hv => exact .some (values_of_matched hv fun operation h => hplain operation (congrArg some h))
  define h _ hv := environment_matched_define h hv _
  scope s _ _ h hv := ⟨(), environment_matched_define h hv s⟩
  create := by
    rintro i j parameter body _ hsupply rfl
    exact ⟨Or.inr hsupply, rfl⟩
  supply_next := by
    rintro _ _ ⟨k, rfl, rfl⟩
    exact ⟨k + 1, rfl, rfl⟩
  unboundSymbol h := by
    obtain ⟨_, rfl⟩ := Expression.symbol.inj h
    rfl
  notOperation kind h := by
    obtain ⟨rfl, _⟩ := List.cons.inj (Expression.list.inj h).1
    rfl
  notNumeral value h := congrArg (fun e : Expression => EvalError.notNumeral value e.render e.position) h
  wrongKind target kind h := congrArg (fun e : Expression => EvalError.wrongKind target kind e.render e.position) h
  missingArgument := rfl
  operation_error _ := rfl

end Likeness

/-- **Two machines that agree name by name end alike, whatever identities they give out.** -/
theorem evaluate_matched (depth : Nat) (e : Expression) (machine machine' : Machine) :
    let a : Identity := ⟨machine.region, machine.serial⟩
    let b : Identity := ⟨machine'.region, machine'.serial⟩
    Environment.Matched a b machine.env machine'.env → machine.env.Over Action.IsPlain →
    Eval.Ends (fun m n => Environment.Matched a b m.env n.env) Eq (Value.Matched a b)
      ((evaluate depth e).start machine) ((evaluate depth e).start machine') := by
  intro a b henv hover
  have hstart : (Likeness.creations a b).Machines () machine machine' := ⟨⟨henv, hover⟩, 0, rfl, rfl⟩
  have hends := (Likeness.creations_lawful a b).evaluators depth () e e rfl machine machine' hstart
  generalize (evaluate depth e).start machine = r, (evaluate depth e).start machine' = s at hends ⊢
  cases hends with
  | never => exact .never
  | value hv hm => exact .value (Likeness.matched_of_values hv) hm.1.1
  | error hx hm => exact .error hx hm.1.1

end SExprLang
