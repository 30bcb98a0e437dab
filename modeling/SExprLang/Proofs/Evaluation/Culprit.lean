import SExprLang.Proofs.Evaluation.Agreement

/-!
# What an evaluation error points at

An error with a position points at a node of the program, and what else it says is true of that node
(`exists_culprit`). The program is the expression with the bodies of the functions that are bound at the start
(`ProgramNode`). A function that is defined on the way has a body that is an argument somewhere in the program, so every
body that is ever bound is a node of it; this is the invariant, and the likeness `Likeness.within` states it of both runs
of a pair that are the same.
-/

namespace SExprLang

/-! ## Nodes of a program -/

namespace Expression

/-- A path of item numbers leads from the tree to the node. -/
def HasNode (e n : Expression) : Prop := ∃ path, e.descend? path = some n

theorem hasNode_self (e : Expression) : e.HasNode e := ⟨[], rfl⟩

/-- The only node of an atom is the atom itself. -/
theorem hasNode_iff_of_isAtom {e n : Expression} (h : e.isAtom = true) : e.HasNode n ↔ n = e := by
  constructor
  · rintro ⟨path, hpath⟩
    cases path with
    | nil => exact (Option.some.inj hpath).symm
    | cons i path => cases e <;> simp [isAtom, descend?, items?] at h hpath
  · rintro rfl
    exact n.hasNode_self

@[simp]
theorem hasNode_symbol_iff {name : String} {p : Position} {n : Expression} :
    (symbol name p).HasNode n ↔ n = symbol name p := hasNode_iff_of_isAtom rfl

@[simp]
theorem hasNode_number_iff {value : Double} {lexeme : String} {p : Position} {n : Expression} :
    (number value lexeme p).HasNode n ↔ n = number value lexeme p := hasNode_iff_of_isAtom rfl

@[simp]
theorem hasNode_string_iff {value : String} {p : Position} {n : Expression} :
    (string value p).HasNode n ↔ n = string value p := hasNode_iff_of_isAtom rfl

/-- The nodes of a list are the list itself and the nodes of its items. -/
@[simp]
theorem hasNode_list_iff {items : List Expression} {p : Position} {n : Expression} :
    (list items p).HasNode n ↔ n = list items p ∨ ∃ item ∈ items, item.HasNode n := by
  constructor
  · rintro ⟨path, hpath⟩
    cases path with
    | nil => exact Or.inl (Option.some.inj hpath).symm
    | cons i path =>
      simp only [descend?, items?, Option.bind_eq_bind, Option.bind_some, Option.bind_eq_some_iff] at hpath
      obtain ⟨item, hi, hrest⟩ := hpath
      exact Or.inr ⟨item, List.mem_of_getElem? hi, path, hrest⟩
  · rintro (rfl | ⟨item, hmem, path, hpath⟩)
    · exact hasNode_self _
    · obtain ⟨i, hi⟩ := List.getElem?_of_mem hmem
      refine ⟨i :: path, ?_⟩
      simp only [descend?, items?, Option.bind_eq_bind, Option.bind_some, hi]
      exact hpath

theorem descend?_concat {e : Expression} {items : List Expression} {p : Position} {i : Nat} {item : Expression}
    (hi : items[i]? = some item) : ∀ {path : List Nat}, e.descend? path = some (.list items p) →
    e.descend? (path ++ [i]) = some item := by
  intro path
  induction path generalizing e with
  | nil =>
    intro h
    obtain rfl := Option.some.inj h
    simp [descend?, items?, hi]
  | cons j path ih =>
    intro h
    simp only [List.cons_append, descend?, Option.bind_eq_bind, Option.bind_eq_some_iff] at h ⊢
    obtain ⟨es, hes, f, hf, hrest⟩ := h
    exact ⟨es, hes, f, hf, ih hrest⟩

theorem HasNode.item {e : Expression} {items : List Expression} {p : Position} (h : e.HasNode (.list items p))
    {item : Expression} (hmem : item ∈ items) : e.HasNode item := by
  obtain ⟨path, hpath⟩ := h
  obtain ⟨i, hi⟩ := List.getElem?_of_mem hmem
  exact ⟨path ++ [i], descend?_concat hi hpath⟩

end Expression

/-- The body of a function that the environment binds. -/
def Environment.BindsBody (env : Environment) (body : Expression) : Prop :=
  ∃ name identity parameter, env.get? name = some (.host ⟨identity, .function parameter body⟩)

/-- A node of the expression or of the body of a function that the environment binds. -/
def ProgramNode (e : Expression) (env : Environment) (n : Expression) : Prop :=
  e.HasNode n ∨ ∃ body, env.BindsBody body ∧ body.HasNode n

/-- Besides the position, what an error says is true of a node: its name, that it is the head of a list, its text. -/
def EvalError.Describes (node : Expression → Prop) (n : Expression) : EvalError → Prop
  | unboundSymbol name _ => n.symbolName? = some name
  | notOperation _ text _ => text = n.render ∧ ∃ arguments p, node (.list (n :: arguments) p)
  | notNumeral _ text _ | wrongKind _ _ text _ => text = n.render
  | missingArgument | operation _ => False

/-- If the error has a position, it is that of a node which the error describes. -/
def EvalError.PointsInto (node : Expression → Prop) (error : EvalError) : Prop :=
  ∀ position, error.position? = some position → ∃ n, node n ∧ n.position = position ∧ error.Describes node n

/-! ## Runs that stay within a program -/

/-- The items of a list of nodes are nodes. -/
def ItemsClosed (node : Expression → Prop) : Prop :=
  ∀ items p, node (.list items p) → ∀ item ∈ items, node item

theorem itemsClosed_programNode (e : Expression) (env : Environment) : ItemsClosed (ProgramNode e env) := by
  rintro items p (h | ⟨body, hbody, h⟩) item hmem
  · exact Or.inl (h.item hmem)
  · exact Or.inr ⟨body, hbody, h.item hmem⟩

namespace Likeness

/-- The same runs, whose expressions and bodies are nodes and whose errors point at nodes. -/
def within (node : Expression → Prop) : Likeness Unit where
  expression e e' := e = e' ∧ node e
  name _ := True
  text _ := True
  operation o o' := o = o' ∧ Vocabulary.standard.Offers o.action
  object a b := a = b ∧ ∀ parameter body, a.content = .function parameter body → node body
  environment _ env env' := env = env' ∧ env.Over Vocabulary.standard.Offers ∧ ∀ body, env.BindsBody body → node body
  supply i j := i = j
  error x y := x = y ∧ x.PointsInto node

variable {node : Expression → Prop}

theorem eq_of_values {v v' : Value} (h : (within node).Values v v') : v = v' := by
  cases h with
  | operation h => exact congrArg Value.operation h.1
  | host h => exact congrArg Value.host h.1
  | _ => rfl

/-- A binding to a value of the run adds no operation and no body from outside. -/
theorem environment_define {env : Environment} {v v' : Value} (h : (within node).environment () env env)
    (hv : (within node).Values v v') (name : String) :
    (within node).environment () (env.define name v) (env.define name v') := by
  obtain ⟨_, hover, hbodies⟩ := h
  obtain rfl := eq_of_values hv
  refine ⟨rfl, hover.define name (hv.offered fun _ _ h => h.2), ?_⟩
  rintro body ⟨other, identity, parameter, hget⟩
  rw [Environment.get?_define] at hget
  split at hget
  · obtain rfl := Option.some.inj hget
    cases hv with
    | host h => exact h.2 parameter body rfl
  · exact hbodies body ⟨other, identity, parameter, hget⟩

theorem values_of_get? {env : Environment} (h : (within node).environment () env env) {name : String} {v : Value}
    (hget : env.get? name = some v) : (within node).Values v v := by
  obtain ⟨_, hover, hbodies⟩ := h
  refine .refl (fun _ => trivial) ?_ ?_
  · rintro operation rfl
    exact ⟨rfl, hover name operation hget⟩
  · rintro ⟨identity, content⟩ rfl
    refine ⟨rfl, ?_⟩
    rintro parameter body rfl
    exact hbodies body ⟨name, identity, parameter, hget⟩

theorem within_lawful (hclosed : ItemsClosed node) : (within node).Lawful where
  roots := by
    rintro e _ ⟨rfl, he⟩
    refine .refl (fun _ => trivial) (fun _ => trivial) ?_
    rintro items p rfl item hmem
    exact ⟨rfl, hclosed items p he item hmem⟩
  render h := congrArg Expression.render h.1
  text_name _ := trivial
  action h := ⟨congrArg Operation.action h.1, keeps_of_offers (fun _ => trivial) (by decide) h.2⟩
  contents := by
    rintro ⟨identity, content⟩ _ ⟨rfl, hbody⟩
    exact .refl fun parameter body h => ⟨rfl, hbody parameter body h⟩
  lookup := by
    rintro w env _ s ⟨rfl, henv⟩ _
    cases hget : env.get? s with
    | none => exact .none
    | some v => exact .some (values_of_get? ⟨rfl, henv⟩ hget)
  define := by
    rintro w env _ s v v' ⟨rfl, henv⟩ _ hv
    exact environment_define ⟨rfl, henv⟩ hv s
  scope := by
    rintro w env _ s v v' ⟨rfl, henv⟩ hv
    exact ⟨w, environment_define ⟨rfl, henv⟩ hv s⟩
  create := by
    rintro i _ parameter body _ rfl ⟨rfl, hbody⟩
    refine ⟨rfl, ?_⟩
    rintro _ _ ⟨⟩
    exact hbody
  supply_next h := congrArg (fun i : Identity => (⟨i.region, i.serial + 1⟩ : Identity)) h
  unboundSymbol := by
    rintro name p q ⟨h, hnode⟩
    obtain ⟨_, rfl⟩ := Expression.symbol.inj h
    refine ⟨rfl, ?_⟩
    rintro _ ⟨⟩
    exact ⟨.symbol name p, hnode, rfl, rfl⟩
  notOperation := by
    rintro head head' arguments arguments' p q kind ⟨h, hnode⟩
    obtain ⟨hitems, rfl⟩ := Expression.list.inj h
    obtain ⟨rfl, rfl⟩ := List.cons.inj hitems
    refine ⟨rfl, ?_⟩
    rintro _ ⟨⟩
    exact ⟨head, hclosed _ p hnode head List.mem_cons_self, rfl, rfl, arguments, p, hnode⟩
  notNumeral := by
    rintro e _ value ⟨rfl, hnode⟩
    refine ⟨rfl, ?_⟩
    rintro _ ⟨⟩
    exact ⟨e, hnode, rfl, rfl⟩
  wrongKind := by
    rintro e _ target kind ⟨rfl, hnode⟩
    refine ⟨rfl, ?_⟩
    rintro _ ⟨⟩
    exact ⟨e, hnode, rfl, rfl⟩
  missingArgument := ⟨rfl, nofun⟩
  operation_error _ := ⟨rfl, nofun⟩

end Likeness

/-! ## The culprit -/

/-- **An error with a position points at a node of the program.** The node is in the expression or in a function that was
bound at the start, however deep in calls the error arose, and the error describes it: an unbound symbol by its name, the
head of a list that is not an operation and an argument that cannot be converted by their texts. -/
theorem exists_culprit {depth : Nat} {e : Expression} {machine after : Machine} {error : EvalError} {position : Position}
    (hover : machine.env.Over Vocabulary.standard.Offers)
    (h : (evaluate depth e).start machine = some (.error error, after)) (hposition : error.position? = some position) :
    ∃ n, ProgramNode e machine.env n ∧ n.position = position ∧ error.Describes (ProgramNode e machine.env) n := by
  have henv : (Likeness.within (ProgramNode e machine.env)).environment () machine.env machine.env :=
    ⟨rfl, hover, fun body hbody => Or.inr ⟨body, hbody, body.hasNode_self⟩⟩
  have hends := (Likeness.within_lawful (itemsClosed_programNode e machine.env)).evaluators depth () e e
    ⟨rfl, Or.inl e.hasNode_self⟩ machine machine ⟨henv, rfl⟩
  rw [h] at hends
  cases hends with
  | error herror _ => exact herror.2 position hposition

/-- A function that the program defines and calls adds a string to its argument: the error is at that string, two calls
deep. -/
theorem exists_culprit_of_called :
    let body : Expression := .list [.symbol "+" ⟨2, 3⟩, .symbol "x" ⟨2, 5⟩, .string "z" ⟨2, 7⟩] ⟨2, 2⟩
    let e : Expression := .list [.symbol "prog" ⟨1, 2⟩,
      .list [.symbol "def" ⟨1, 8⟩, .string "F" ⟨1, 12⟩, .string "x" ⟨1, 16⟩, body] ⟨1, 7⟩,
      .list [.symbol "call" ⟨3, 3⟩, .string "F" ⟨3, 8⟩, .number .one "1" ⟨3, 12⟩] ⟨3, 2⟩] ⟨1, 1⟩
    let machine : Machine := Machine.mk Vocabulary.standard.environment 0 9 []
    let error : EvalError := .notNumeral "z" "\"z\"" ⟨2, 7⟩
    machine.env.Over Vocabulary.standard.Offers ∧
      ((evaluate 5 e).start machine).map (·.1) = some (.error error) ∧ error.position? = some ⟨2, 7⟩ ∧
      ∃ n, ProgramNode e machine.env n ∧ n.position = ⟨2, 7⟩ ∧ error.Describes (ProgramNode e machine.env) n := by
  intro body e machine error
  have hrun : ((evaluate 5 e).start machine).map (·.1) = some (.error error) := by decide +kernel +revert
  have hover : machine.env.Over Vocabulary.standard.Offers := Vocabulary.environment_over .standard
  obtain ⟨⟨_, after⟩, h, rfl⟩ := Option.map_eq_some_iff.1 hrun
  exact ⟨hover, hrun, rfl, exists_culprit hover h rfl⟩

end SExprLang
