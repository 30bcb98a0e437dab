import SExprLang.Proofs.Evaluation.Culprit

/-!
# What a program can mention

A program reads by name and writes by string: a symbol is looked up under its name, and whatever binds, calls or defines
gets the name as a string. A `Lexicon` is a set of names and strings that a program does not leave. Every action of the
standard vocabulary stays inside it, since none makes a string of its own, and so two runs in environments that agree on
the names of the lexicon end in the same way (`Lexicon.evaluate_ends`). On its way each run changes only what the
strings of the lexicon name, and it unbinds nothing.

The strings that a program holds are such a lexicon, and so a program can bind nothing else (`evaluate_binds`).
-/

namespace SExprLang

open Eval

/-- A symbol of the expression or of the body of a function that the environment binds. -/
def ProgramSymbol (e : Expression) (env : Environment) (name : String) : Prop := ∃ p, ProgramNode e env (.symbol name p)

/-- A string literal of the expression or of the body of a function that the environment binds, or a string that the
environment binds. -/
def ProgramString (e : Expression) (env : Environment) (s : String) : Prop :=
  (∃ p, ProgramNode e env (.string s p)) ∨ ∃ name, env.get? name = some (.string s)

/-- Names that the symbols of a program may have and strings that it may hold. A string can be used as a name. -/
structure Lexicon where
  name : String → Prop
  text : String → Prop
  name_of_text : ∀ {s : String}, text s → name s

namespace Lexicon

variable (X : Lexicon)

/-! ## Inside a lexicon -/

/-- Every symbol and every string literal of the tree is in the lexicon. -/
structure Covers (e : Expression) : Prop where
  symbol : ∀ name p, e.HasNode (.symbol name p) → X.name name
  string : ∀ value p, e.HasNode (.string value p) → X.text value

/-- A string of the lexicon, an operation of the standard vocabulary, a function whose body is in the lexicon, or a
value that can lead nowhere. -/
def Admits : Value → Prop
  | .string s => X.text s
  | .operation operation => Vocabulary.standard.Offers operation.action
  | .host ⟨_, .function _ body⟩ => X.Covers body
  | _ => True

/-- Both environments bind each name of the lexicon to the same value, which the lexicon admits, or not at all. -/
def Agree (env env' : Environment) : Prop :=
  ∀ name, X.name name → env.get? name = env'.get? name ∧ ∀ value, env.get? name = some value → X.Admits value

/-- Every symbol and every string of the program is in the lexicon. -/
structure Includes (e : Expression) (env : Environment) : Prop where
  symbol : ∀ name, ProgramSymbol e env name → X.name name
  string : ∀ s, ProgramString e env s → X.text s

/-- What was bound at the start still is, and only what a string of the lexicon names is bound in another way. -/
structure Follows (start env : Environment) : Prop where
  bound : ∀ name, start.contains name = true → env.contains name = true
  unchanged : ∀ name, ¬ X.text name → env.get? name = start.get? name

variable {X} {e : Expression} {env env' start : Environment}

theorem Covers.item {items : List Expression} {p : Position} (h : X.Covers (.list items p)) {item : Expression}
    (hmem : item ∈ items) : X.Covers item where
  symbol name q hn := h.symbol name q (Expression.hasNode_list_iff.2 (Or.inr ⟨item, hmem, hn⟩))
  string value q hn := h.string value q (Expression.hasNode_list_iff.2 (Or.inr ⟨item, hmem, hn⟩))

theorem Includes.covers (h : X.Includes e env) : X.Covers e where
  symbol name p hn := h.symbol name ⟨p, Or.inl hn⟩
  string value p hn := h.string value (Or.inl ⟨p, Or.inl hn⟩)

theorem Includes.covers_body (h : X.Includes e env) {body : Expression} (hbody : env.BindsBody body) :
    X.Covers body where
  symbol name p hn := h.symbol name ⟨p, Or.inr ⟨body, hbody, hn⟩⟩
  string value p hn := h.string value (Or.inl ⟨p, Or.inr ⟨body, hbody, hn⟩⟩)

theorem Includes.admits (h : X.Includes e env) (hover : env.Over Vocabulary.standard.Offers) {name : String}
    {value : Value} (hget : env.get? name = some value) : X.Admits value := by
  cases value with
  | string s => exact h.string s (Or.inr ⟨name, hget⟩)
  | operation operation => exact hover name operation hget
  | host a =>
    obtain ⟨identity, content⟩ := a
    cases content with
    | function parameter body => exact h.covers_body ⟨name, identity, parameter, hget⟩
    | _ => trivial
  | _ => trivial

theorem Agree.define (h : X.Agree env env') (name : String) {value : Value} (hv : X.Admits value) :
    X.Agree (env.define name value) (env'.define name value) := by
  intro other hother
  obtain ⟨hget, hadmits⟩ := h other hother
  rw [Environment.get?_define, Environment.get?_define]
  split
  · exact ⟨rfl, fun _ hsome => Option.some.inj hsome ▸ hv⟩
  · exact ⟨hget, hadmits⟩

theorem Follows.refl (env : Environment) : X.Follows env env := ⟨fun _ h => h, fun _ _ => rfl⟩

theorem Follows.define (h : X.Follows start env) {name : String} (hname : X.text name) (value : Value) :
    X.Follows start (env.define name value) where
  bound other hother := by
    have hbound := h.bound other hother
    rw [Environment.contains] at hbound ⊢
    rw [Environment.get?_define]
    split
    · rfl
    · exact hbound
  unchanged other hother := by
    have hne : other ≠ name := fun heq => hother (heq ▸ hname)
    rw [Environment.get?_define, if_neg hne]
    exact h.unchanged other hother

end Lexicon

/-! ## Two runs inside a lexicon -/

namespace Likeness

/-- The same runs inside a lexicon, in environments that agree on it and follow those of the start. -/
def inside (X : Lexicon) : Likeness (Environment × Environment) where
  expression e e' := e = e' ∧ X.Covers e
  name := X.name
  text := X.text
  operation o o' := o = o' ∧ Vocabulary.standard.Offers o.action
  object a b := a = b ∧ ∀ parameter body, a.content = .function parameter body → X.Covers body
  environment start env env' := X.Agree env env' ∧ X.Follows start.1 env ∧ X.Follows start.2 env'
  supply i j := i = j
  error x y := x = y

variable {X : Lexicon}

theorem admits_of_values {v v' : Value} (h : (inside X).Values v v') : v = v' ∧ X.Admits v := by
  cases h with
  | string hs => exact ⟨rfl, hs⟩
  | operation ho => exact ⟨congrArg Value.operation ho.1, ho.2⟩
  | @host a b hab =>
    obtain ⟨identity, content⟩ := a
    obtain ⟨rfl, hbody⟩ := hab
    refine ⟨rfl, ?_⟩
    cases content with
    | function parameter body => exact hbody parameter body rfl
    | _ => trivial
  | _ => exact ⟨rfl, trivial⟩

theorem values_of_admits {v : Value} (h : X.Admits v) : (inside X).Values v v := by
  cases v with
  | nil => exact .nil
  | bool b => exact .bool b
  | number n => exact .number n
  | string s => exact .string h
  | numbers ns => exact .numbers ns
  | strings ss => exact .strings ss
  | operation o => exact .operation ⟨rfl, h⟩
  | host a =>
    refine .host ⟨rfl, ?_⟩
    obtain ⟨identity, content⟩ := a
    rintro parameter body rfl
    exact h

theorem roots_of_covers {e : Expression} (h : X.Covers e) : (inside X).Roots e e := by
  cases e with
  | symbol name p => exact .symbol p p (h.symbol name p (Expression.hasNode_self _))
  | number value lexeme p => exact .number value lexeme lexeme p p
  | string value p => exact .string p p (h.string value p (Expression.hasNode_self _))
  | list items p => exact .list p p (List.forall₂_same.2 fun item hmem => ⟨rfl, h.item hmem⟩)

theorem inside_lawful (X : Lexicon) : (inside X).Lawful where
  roots := by
    rintro e _ ⟨rfl, he⟩
    exact roots_of_covers he
  render h := congrArg Expression.render h.1
  text_name h := X.name_of_text h
  action := by
    rintro ⟨identity, action⟩ _ ⟨rfl, hoffers⟩
    -- Queries would make strings that are not in the lexicon; the standard vocabulary has none.
    obtain ⟨what, rfl⟩ := Vocabulary.exists_standard_of_offers hoffers
    exact ⟨rfl, trivial⟩
  contents := by
    rintro ⟨identity, content⟩ _ ⟨rfl, hbody⟩
    exact .refl fun parameter body h => ⟨rfl, hbody parameter body h⟩
  lookup := by
    rintro start env env' s ⟨hagree, _⟩ hs
    obtain ⟨hget, hadmits⟩ := hagree s hs
    rw [← hget]
    cases hfound : env.get? s with
    | none => exact .none
    | some value => exact .some (values_of_admits (hadmits value hfound))
  define := by
    rintro start env env' s v v' ⟨hagree, hfollows, hfollows'⟩ hs hv
    obtain ⟨rfl, hadmits⟩ := admits_of_values hv
    exact ⟨hagree.define s hadmits, hfollows.define hs v, hfollows'.define hs v⟩
  scope := by
    rintro start env env' parameter v v' ⟨hagree, _⟩ hv
    obtain ⟨rfl, hadmits⟩ := admits_of_values hv
    -- A parameter need not be in the lexicon, so the run of a body is compared with the start of the scope.
    exact ⟨(env.define parameter v, env'.define parameter v), hagree.define parameter hadmits, .refl _, .refl _⟩
  create := by
    rintro i _ parameter body _ rfl ⟨rfl, hbody⟩
    refine ⟨rfl, ?_⟩
    rintro _ _ ⟨⟩
    exact hbody
  supply_next h := congrArg (fun i : Identity => (⟨i.region, i.serial + 1⟩ : Identity)) h
  unboundSymbol h := congrArg (EvalError.unboundSymbol _) (Expression.symbol.inj h.1).2
  notOperation kind h := by
    obtain ⟨rfl, _⟩ := List.cons.inj (Expression.list.inj h.1).1
    rfl
  notNumeral value h := congrArg (fun e : Expression => EvalError.notNumeral value e.render e.position) h.1
  wrongKind target kind h := congrArg (fun e : Expression => EvalError.wrongKind target kind e.render e.position) h.1
  missingArgument := rfl
  operation_error _ := rfl

end Likeness

/-- **Environments that agree on a lexicon cannot be told apart from inside it.** Both runs end in the same way, in
environments that agree again, and each has changed only what the strings of the lexicon name. -/
theorem Lexicon.evaluate_ends {X : Lexicon} (depth : Nat) {e : Expression} (he : X.Covers e) (machine : Machine)
    {env' : Environment} (hagree : X.Agree machine.env env') :
    Ends (fun m n => X.Agree m.env n.env ∧ X.Follows machine.env m.env ∧ X.Follows env' n.env) Eq Eq
      ((evaluate depth e).start machine) ((evaluate depth e).start { machine with env := env' }) := by
  have hends := (Likeness.inside_lawful X).evaluators depth (machine.env, env') e e ⟨rfl, he⟩ machine
    { machine with env := env' } ⟨⟨hagree, .refl _, .refl _⟩, rfl⟩
  generalize (evaluate depth e).start machine = r, (evaluate depth e).start { machine with env := env' } = s at hends ⊢
  cases hends with
  | never => exact .never
  | value hv hm => exact .value (Likeness.admits_of_values hv).1 hm.1
  | error hx hm => exact .error hx hm.1

/-! ## The strings of a program -/

/-- The strings of a program, with all names. -/
def Lexicon.ofProgram (e : Expression) (env : Environment) : Lexicon :=
  ⟨fun _ => True, ProgramString e env, fun _ => trivial⟩

theorem Lexicon.includes_ofProgram (e : Expression) (env : Environment) : (ofProgram e env).Includes e env :=
  ⟨fun _ _ => trivial, fun _ h => h⟩

/-- **A program binds only names that it holds as strings, and unbinds nothing.** Whatever the outcome, all names that
were bound are bound, a name that is bound in another way than before is a string of the program, and so is every string
that is bound and every string literal in the body of a function that is bound. -/
theorem evaluate_binds {depth : Nat} {e : Expression} {machine after : Machine} {outcome : Except EvalError Value}
    (hover : machine.env.Over Vocabulary.standard.Offers)
    (h : (evaluate depth e).start machine = some (outcome, after)) :
    (∀ name, machine.env.contains name = true → after.env.contains name = true) ∧
    (∀ name, after.env.get? name ≠ machine.env.get? name → ProgramString e machine.env name) ∧
    (∀ name s, after.env.get? name = some (.string s) → ProgramString e machine.env s) ∧
    (∀ body s p, after.env.BindsBody body → body.HasNode (.string s p) → ProgramString e machine.env s) := by
  have hincludes := Lexicon.includes_ofProgram e machine.env
  have hends := Lexicon.evaluate_ends depth hincludes.covers machine fun _ _ =>
    ⟨rfl, fun _ => hincludes.admits hover⟩
  have hafter : (Lexicon.ofProgram e machine.env).Agree after.env after.env ∧
      (Lexicon.ofProgram e machine.env).Follows machine.env after.env := by
    rw [show { machine with env := machine.env } = machine from rfl, h] at hends
    cases hends with
    | value _ hm => exact ⟨hm.1, hm.2.1⟩
    | error _ hm => exact ⟨hm.1, hm.2.1⟩
  obtain ⟨hagree, hfollows⟩ := hafter
  refine ⟨hfollows.bound, ?_, ?_, ?_⟩
  · intro name hname
    by_contra hnot
    exact hname (hfollows.unchanged name hnot)
  · intro name s hget
    exact (hagree name trivial).2 _ hget
  · rintro body s p ⟨name, identity, parameter, hget⟩ hn
    exact ((hagree name trivial).2 _ hget).string s p hn

/-- A name that comes from a binding, a function that is defined, called and binds a name of its own, and an error at
the end: the name that was written is a string of the program, and what was bound still is. -/
theorem evaluate_binds_computed_name :
    let p : Position := ⟨1, 1⟩
    let e : Expression := .list [.symbol "prog" p,
      .list [.symbol "set" p, .symbol "key" p, .number .one "1" p] p,
      .list [.symbol "def" p, .string "F" p, .string "x" p,
        .list [.symbol "set" p, .string "local" p, .symbol "x" p] p] p,
      .list [.symbol "call" p, .string "F" p, .symbol "out" p] p,
      .symbol "lost" p] p
    let machine : Machine := Machine.mk (Vocabulary.standard.environment.define "key" (.string "out")) 0 9 []
    machine.env.Over Vocabulary.standard.Offers ∧
      ((evaluate 5 e).start machine).map (fun (outcome, after) =>
        (outcome, after.env.get? "out", after.env.contains "local")) =
          some (.error (.unboundSymbol "lost" p), some (.number .one), false) ∧
      machine.env.get? "out" = none ∧ ProgramString e machine.env "out" ∧
      ((evaluate 5 e).start machine).map (fun (_, after) => after.env.contains "key") = some true := by
  intro p e machine
  have hover : machine.env.Over Vocabulary.standard.Offers :=
    (Vocabulary.environment_over .standard).define "key" nofun
  have hrun : ((evaluate 5 e).start machine).map (fun (outcome, after) =>
      (outcome, after.env.get? "out", after.env.contains "local")) =
        some (.error (.unboundSymbol "lost" p), some (.number .one), false) := by decide +kernel
  have hout : machine.env.get? "out" = none := by decide +kernel
  obtain ⟨⟨outcome, after⟩, h, heq⟩ := Option.map_eq_some_iff.1 hrun
  obtain ⟨_, hget, _⟩ : outcome = _ ∧ after.env.get? "out" = _ ∧ _ := by simpa using heq
  obtain ⟨hbound, hwritten, _, _⟩ := evaluate_binds hover h
  refine ⟨hover, hrun, hout, hwritten "out" (by rw [hget, hout]; exact nofun), ?_⟩
  rw [h]
  exact congrArg some (hbound "key" (by decide +kernel))

end SExprLang
