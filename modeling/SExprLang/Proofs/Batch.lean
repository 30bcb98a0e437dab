import SExprLang.Batch
import SExprLang.Proofs.Evaluation.Creations

/-!
# Batches are evaluated row by row

A row is evaluated in its own machine, so two visits commute (`visit_comm`) and the order in which the rows are taken up
does not matter (`visitAll_perm`): whatever the plan and the schedule, a batch maps the evaluation of a row over its rows
(`evaluate_eq`). A row differs from a run on its own in the region of its identities only, which is no difference by
`evaluate_matched`. The main result `evaluate_rowwise` is put together from these.
-/

namespace SExprLang.Batch

variable {e : Expression} {depth : Nat}

/-! ## The order of the visits -/

theorem visit_none {rows : List Row} {i : Nat} (h : rows[i]? = none) : visit e depth rows i = some rows := by
  rw [visit, h]

theorem visit_some {rows : List Row} {i : Nat} {row : Row} (h : rows[i]? = some row) :
    visit e depth rows i = (row.evaluate e depth).map (rows.set i ·) := by
  rw [visit, h]

/-- A visit does not see a change of another row. -/
theorem visit_set (rows : List Row) {i j : Nat} (hij : i ≠ j) (row : Row) :
    visit e depth (rows.set j row) i = (visit e depth rows i).map (·.set j row) := by
  have hset : (rows.set j row)[i]? = rows[i]? := List.getElem?_set_ne hij.symm
  cases h : rows[i]? with
  | none =>
    rw [visit_none h, visit_none (hset.trans h)]
    rfl
  | some old =>
    rw [visit_some h, visit_some (hset.trans h), Option.map_map]
    congr 1
    funext new
    exact List.set_comm row new hij.symm

theorem visit_comm (rows : List Row) (i j : Nat) :
    (visit e depth rows i).bind (visit e depth · j) = (visit e depth rows j).bind (visit e depth · i) := by
  by_cases hij : i = j
  · rw [hij]
  have hi : ∀ row, visit e depth (rows.set j row) i = (visit e depth rows i).map (·.set j row) := visit_set rows hij
  have hj : ∀ row, visit e depth (rows.set i row) j = (visit e depth rows j).map (·.set i row) :=
    visit_set rows (Ne.symm hij)
  -- a place without a row is passed over, so both places are looked at with a row and without
  cases ha : rows[i]? with
  | none =>
    rw [visit_none ha] at hi ⊢
    cases hb : rows[j]? with
    | none => rw [visit_none hb, Option.bind_some, Option.bind_some, visit_none ha, visit_none hb]
    | some b =>
      rw [Option.bind_some, visit_some hb]
      cases b.evaluate e depth with
      | none => rfl
      | some b' => exact (hi b').symm
  | some a =>
    rw [visit_some ha] at hi ⊢
    cases hb : rows[j]? with
    | none =>
      rw [visit_none hb] at hj ⊢
      rw [Option.bind_some, visit_some ha]
      cases a.evaluate e depth with
      | none => rfl
      | some a' => exact hj a'
    | some b =>
      rw [visit_some hb] at hj ⊢
      generalize a.evaluate e depth = a', b.evaluate e depth = b' at hi hj ⊢
      cases a' <;> cases b' <;> simp [hi, hj, List.set_comm _ _ hij]

/-- The order in which rows are taken up does not matter. -/
theorem visitAll_perm {order order' : List Nat} (h : order.Perm order') (rows : List Row) :
    visitAll e depth rows order = visitAll e depth rows order' := by
  induction h generalizing rows with
  | nil => rfl
  | cons i _ ih =>
    simp only [visitAll, List.foldlM_cons]
    exact congrArg _ (funext ih)
  | swap i j rest =>
    simp only [visitAll, List.foldlM_cons, ← bind_assoc]
    exact congrArg (· >>= _) (visit_comm rows j i)
  | trans _ _ ih ih' => exact (ih rows).trans (ih' rows)

/-- The visits in order: the rows before are done, and each visit puts one more to them. -/
theorem visitAll_range' (e : Expression) (depth : Nat) (done rows : List Row) :
    visitAll e depth (done ++ rows) (List.range' done.length rows.length) =
      (rows.mapM (Row.evaluate e depth)).map (done ++ ·) := by
  induction rows generalizing done with
  | nil => rfl
  | cons row rest ih =>
    have hvisit : visit e depth (done ++ row :: rest) done.length =
        (row.evaluate e depth).map fun new => done ++ new :: rest := by
      have hrow : (done ++ row :: rest)[done.length]? = some row := by simp
      rw [visit_some hrow]
      simp
    rw [List.length_cons, List.range'_succ, visitAll, List.foldlM_cons, hvisit, List.mapM_cons]
    cases row.evaluate e depth with
    | none => rfl
    | some new =>
      have hrest := ih (done ++ [new])
      simp only [List.append_assoc, List.singleton_append, List.length_append, List.length_singleton] at hrest
      simp only [Option.map_some, Option.bind_eq_bind, Option.bind_some, visitAll] at hrest ⊢
      rw [hrest]
      cases rest.mapM (Row.evaluate e depth) <;> rfl

/-! ## The rows of a batch -/

section

variable {α β γ : Type} {f : α → Option β}

theorem mapM_map_result (g : β → γ) (xs : List α) : xs.mapM (fun x => (f x).map g) = (xs.mapM f).map (·.map g) := by
  induction xs with
  | nil => rfl
  | cons x rest ih =>
    rw [List.mapM_cons, List.mapM_cons, ih]
    cases f x <;> cases rest.mapM f <;> rfl

theorem isSome_mapM_iff (xs : List α) : (xs.mapM f).isSome ↔ ∀ x ∈ xs, (f x).isSome := by
  induction xs with
  | nil => simp
  | cons x rest ih =>
    rw [List.forall_mem_cons, ← ih, List.mapM_cons]
    cases f x <;> cases rest.mapM f <;> simp

theorem getElem?_of_mapM {xs : List α} {ys : List β} (h : xs.mapM f = some ys) :
    ys.length = xs.length ∧ ∀ (i : Nat) (x : α), xs[i]? = some x → ∃ y, ys[i]? = some y ∧ f x = some y := by
  induction xs generalizing ys with
  | nil =>
    obtain rfl : [] = ys := Option.some.inj h
    simp
  | cons x rest ih =>
    rw [List.mapM_cons] at h
    obtain ⟨y, hy, h⟩ := Option.bind_eq_some_iff.1 h
    obtain ⟨zs, hzs, h⟩ := Option.bind_eq_some_iff.1 h
    obtain rfl : y :: zs = ys := Option.some.inj h
    obtain ⟨hlength, hitems⟩ := ih hzs
    refine ⟨congrArg (· + 1) hlength, ?_⟩
    intro i x' hx'
    cases i with
    | zero =>
      obtain rfl : x = x' := Option.some.inj hx'
      exact ⟨y, rfl, hy⟩
    | succ i => exact hitems i x' hx'

end

theorem Config.schedule_order_perm (config : Config) {onPool : Schedule} {rows : Nat}
    (h : onPool.order.Perm (List.range rows)) : (config.schedule onPool rows).order.Perm (List.range rows) := by
  unfold Config.schedule
  split
  · exact List.Perm.refl _
  · exact h

/-- The row of an evaluation that has ended. -/
def Row.ofRun (run : Except EvalError Value × Machine) : Row := ⟨run.2, some run.1⟩

/-- The machines that the rows of a batch start with. -/
def machines (serial : Nat) (environments : List Environment) : List Machine :=
  environments.zipIdx.map fun (env, i) => ⟨env, i + 1, serial, []⟩

theorem length_machines (serial : Nat) (environments : List Environment) :
    (machines serial environments).length = environments.length := by
  simp [machines]

theorem getElem?_machines_eq_some_iff (serial : Nat) (environments : List Environment) (i : Nat) (machine : Machine) :
    (machines serial environments)[i]? = some machine ↔
      ∃ env, environments[i]? = some env ∧ machine = ⟨env, i + 1, serial, []⟩ := by
  simp only [machines, List.getElem?_map, List.getElem?_zipIdx, Nat.zero_add, Option.map_map, Option.map_eq_some_iff]
  constructor
  · rintro ⟨env, henv, rfl⟩
    exact ⟨env, henv, rfl⟩
  · rintro ⟨env, henv, rfl⟩
    exact ⟨env, henv, rfl⟩

/-- A batch runs the machines of its rows, one as the other. -/
theorem evaluate_eq (config : Config) {onPool : Schedule} (serial : Nat) {environments : List Environment}
    (horder : onPool.order.Perm (List.range environments.length)) :
    evaluate config onPool e serial environments depth =
      ((machines serial environments).mapM (Machine.evaluate · e depth)).map fun runs =>
        (runs.map (·.1), config.result false serial (runs.map .ofRun)) := by
  have hrows : visitAll e depth (Row.ofEnvironments serial environments)
      (config.schedule onPool environments.length).order =
        (Row.ofEnvironments serial environments).mapM (Row.evaluate e depth) := by
    have hrange := visitAll_range' e depth [] (Row.ofEnvironments serial environments)
    rw [visitAll_perm (config.schedule_order_perm horder)]
    simpa [Row.ofEnvironments, List.range_eq_range'] using hrange
  have hruns : (Row.ofEnvironments serial environments).mapM (Row.evaluate e depth) =
      ((machines serial environments).mapM (Machine.evaluate · e depth)).map (·.map .ofRun) := by
    rw [← mapM_map_result, machines, Row.ofEnvironments, List.mapM_map, List.mapM_map]
    rfl
  simp only [evaluate, hrows, hruns]
  cases (machines serial environments).mapM (Machine.evaluate · e depth) with
  | none => rfl
  | some runs => simp [Row.ofRun, Function.comp_def]

/-! ## Rows and runs on their own -/

/-- The same error, or the same value up to creations. -/
inductive SameOutcome (a b : Identity) : Except EvalError Value → Except EvalError Value → Prop
  | value {v w : Value} : Value.Matched a b v w → SameOutcome a b (.ok v) (.ok w)
  | error (x : EvalError) : SameOutcome a b (.error x) (.error x)

/-- An outcome of row `i` and the environment it leaves are, up to creations, those of one evaluation in the environment
alone, at the same depth. -/
def AsAlone (e : Expression) (depth serial i : Nat) (env : Environment) (outcome : Except EvalError Value)
    (after : Environment) : Prop :=
  ∃ alone machine, (Machine.ofEnvironment env serial).evaluate e depth = some (alone, machine) ∧
    SameOutcome ⟨i + 1, serial⟩ ⟨0, serial⟩ outcome alone ∧
    Environment.Matched ⟨i + 1, serial⟩ ⟨0, serial⟩ after machine.env

section

variable (e : Expression) (depth serial i : Nat) {env : Environment} (hover : env.Over Action.IsPlain)
include hover

/-- A row and a run on its own end together. -/
theorem row_isSome_iff :
    ((Machine.mk env (i + 1) serial []).evaluate e depth).isSome ↔
      ((Machine.ofEnvironment env serial).evaluate e depth).isSome :=
  (evaluate_matched depth e ⟨env, i + 1, serial, []⟩ (.ofEnvironment env serial) (env.matched_self _ _) hover).isSome_iff

/-- A row ends as a run on its own does. -/
theorem row_asAlone {outcome : Except EvalError Value} {machine : Machine}
    (h : (Machine.mk env (i + 1) serial []).evaluate e depth = some (outcome, machine)) :
    AsAlone e depth serial i env outcome machine.env := by
  have hends := evaluate_matched depth e ⟨env, i + 1, serial, []⟩ (.ofEnvironment env serial) (env.matched_self _ _) hover
  unfold Machine.evaluate at h
  unfold AsAlone Machine.evaluate
  rw [h] at hends
  generalize (SExprLang.evaluate depth e).start (.ofEnvironment env serial) = alone at hends ⊢
  cases hends with
  | value hv henv => exact ⟨_, _, rfl, .value hv, henv⟩
  | error hx henv => exact ⟨_, _, rfl, hx ▸ .error _, henv⟩

end

/-! ## The main result -/

section

variable (config : Config) {onPool : Schedule} (e : Expression) (depth serial : Nat) {environments : List Environment}
  (horder : onPool.order.Perm (List.range environments.length))
  (hover : ∀ env ∈ environments, env.Over Action.IsPlain)
include horder hover

theorem evaluate_isSome_iff :
    (evaluate config onPool e serial environments depth).isSome ↔
      ∀ env ∈ environments, ((Machine.ofEnvironment env serial).evaluate e depth).isSome := by
  rw [evaluate_eq config serial horder, Option.isSome_map, isSome_mapM_iff]
  constructor
  · intro hrows env hmem
    obtain ⟨i, henv⟩ := List.mem_iff_getElem?.1 hmem
    have hmachine := (getElem?_machines_eq_some_iff serial environments i _).2 ⟨env, henv, rfl⟩
    exact (row_isSome_iff e depth serial i (hover env hmem)).1 (hrows _ (List.mem_of_getElem? hmachine))
  · intro halone machine hmem
    obtain ⟨i, hmachine⟩ := List.mem_iff_getElem?.1 hmem
    obtain ⟨env, henv, rfl⟩ := (getElem?_machines_eq_some_iff serial environments i machine).1 hmachine
    have hmem := List.mem_of_getElem? henv
    exact (row_isSome_iff e depth serial i (hover env hmem)).2 (halone env hmem)

theorem evaluate_asAlone {outcomes : List (Except EvalError Value)} {result : Result}
    (h : evaluate config onPool e serial environments depth = some (outcomes, result)) :
    outcomes.length = environments.length ∧ result.environments.length = environments.length ∧
    ∀ (i : Nat) (env : Environment), environments[i]? = some env → ∃ outcome after,
      outcomes[i]? = some outcome ∧ result.environments[i]? = some after ∧ AsAlone e depth serial i env outcome after := by
  rw [evaluate_eq config serial horder] at h
  obtain ⟨runs, hruns, heq⟩ := Option.map_eq_some_iff.1 h
  obtain ⟨rfl, rfl⟩ := Prod.mk.inj heq
  obtain ⟨hlength, hitems⟩ := getElem?_of_mapM hruns
  rw [length_machines] at hlength
  refine ⟨?_, ?_, ?_⟩
  · rw [List.length_map, hlength]
  · rw [Config.result, List.length_map, List.length_map, hlength]
  · intro i env henv
    obtain ⟨⟨outcome, machine⟩, hget, hrun⟩ :=
      hitems i _ ((getElem?_machines_eq_some_iff serial environments i _).2 ⟨env, henv, rfl⟩)
    refine ⟨outcome, machine.env, ?_, ?_, row_asAlone e depth serial i (hover env (List.mem_of_getElem? henv)) hrun⟩
    · rw [List.getElem?_map, hget]
      rfl
    · rw [Config.result, List.getElem?_map, List.getElem?_map, hget]
      rfl

end

/-- On a pool there are rows, and from one thread to as many as there are rows. -/
theorem Config.threads_bounds (config : Config) {rows : Nat} (h : config.isInline rows = false) :
    1 ≤ rows ∧ 1 ≤ config.threads rows ∧ config.threads rows ≤ rows := by
  have hrows : ¬ rows < max config.poolThreshold 1 := of_decide_eq_false h
  unfold Config.threads
  omega

/-- **A batch is evaluated row by row, whatever the plan and the schedule.** At every depth it ends if and only if its rows
end on their own, and then it has one outcome and one environment for each row, in their order, as the row has on its own;
another plan or schedule gives the very same ones. -/
theorem evaluate_rowwise (config : Config) (onPool : Schedule) (e : Expression) (depth serial : Nat)
    (environments : List Environment) (horder : onPool.order.Perm (List.range environments.length))
    (hover : ∀ env ∈ environments, env.Over Action.IsPlain) :
    ((evaluate config onPool e serial environments depth).isSome ↔
      ∀ env ∈ environments, ((Machine.ofEnvironment env serial).evaluate e depth).isSome) ∧
    (∀ outcomes result, evaluate config onPool e serial environments depth = some (outcomes, result) →
      outcomes.length = environments.length ∧ result.environments.length = environments.length ∧
      ∀ (i : Nat) (env : Environment), environments[i]? = some env → ∃ outcome after,
        outcomes[i]? = some outcome ∧ result.environments[i]? = some after ∧ AsAlone e depth serial i env outcome after) ∧
    (∀ (config' : Config) (onPool' : Schedule), onPool'.order.Perm (List.range environments.length) →
      (evaluate config' onPool' e serial environments depth).map
          (fun (outcomes, result) => (outcomes, result.environments)) =
        (evaluate config onPool e serial environments depth).map
          (fun (outcomes, result) => (outcomes, result.environments))) ∧
    (config.isInline environments.length = false →
      1 ≤ environments.length ∧ 1 ≤ config.threads environments.length ∧
        config.threads environments.length ≤ environments.length) := by
  refine ⟨evaluate_isSome_iff config e depth serial horder hover, ?_, ?_, config.threads_bounds⟩
  · intro outcomes result h
    exact evaluate_asAlone config e depth serial horder hover h
  · intro config' onPool' horder'
    rw [evaluate_eq config serial horder, evaluate_eq config' serial horder', Option.map_map, Option.map_map]
    rfl

/-- A program that makes a function, calls it and gives it back, in two rows that a pool takes up the other way round and
that are evaluated without a pool as well. Each row has a function of its own identity and a binding of its own value. -/
theorem evaluate_rowwise_two_rows :
    let p : Position := ⟨1, 1⟩
    let body : Expression := .list [.symbol "+" p, .symbol "x" p, .symbol "a" p] p
    let e : Expression := .list [.symbol "prog" p,
      .list [.symbol "def" p, .string "F" p, .string "x" p, body] p,
      .list [.symbol "set" p, .string "b" p, .list [.symbol "call" p, .string "F" p, .number .one "1" p] p] p,
      .symbol "F" p] p
    let first := Vocabulary.standard.environment.define "a" (.number (.ofInt 4))
    let second := Vocabulary.factorial.environment.define "a" (.number (.ofInt 6))
    let function (region : Nat) : Value := .host ⟨⟨region, 9⟩, .function "x" body⟩
    let outcomes : List (Except EvalError Value) := [.ok (function 1), .ok (function 2)]
    let after := [(first.define "F" (function 1)).define "b" (.number (.ofInt 5)),
      (second.define "F" (function 2)).define "b" (.number (.ofInt 7))]
    (∀ env ∈ [first, second], env.Over Action.IsPlain) ∧
    (evaluate ⟨0, 0⟩ ⟨[1, 0], 0, 0⟩ e 9 [first, second]).map
      (fun (outcomes, result) => (outcomes, result.environments)) = some (outcomes, after) ∧
    (evaluate ⟨0, 5⟩ ⟨[0, 1], 0, 0⟩ e 9 [first, second]).map
      (fun (outcomes, result) => (outcomes, result.environments)) = some (outcomes, after) ∧
    (∀ (i : Nat) (env : Environment), [first, second][i]? = some env → ∃ outcome left,
      outcomes[i]? = some outcome ∧ after[i]? = some left ∧ AsAlone e evaluationDepth 9 i env outcome left) ∧
    1 ≤ Config.threads ⟨0, 0⟩ 2 := by
  intro p body e first second function outcomes after
  have hover : ∀ env ∈ [first, second], env.Over Action.IsPlain := by
    intro env hmem
    rcases List.mem_pair.1 hmem with rfl | rfl
    · exact ((Vocabulary.environment_over .standard).isPlain (by decide)).define "a" nofun
    · exact ((Vocabulary.environment_over .factorial).isPlain (by decide)).define "a" nofun
  have hreversed : [1, 0].Perm (List.range [first, second].length) := by decide
  have hpool : (evaluate ⟨0, 0⟩ ⟨[1, 0], 0, 0⟩ e 9 [first, second]).map
      (fun (outcomes, result) => (outcomes, result.environments)) = some (outcomes, after) := by
    decide +kernel
  obtain ⟨_, hrows, hsame, hthreads⟩ :=
    evaluate_rowwise ⟨0, 0⟩ ⟨[1, 0], 0, 0⟩ e evaluationDepth 9 [first, second] hreversed hover
  refine ⟨hover, hpool, (hsame ⟨0, 5⟩ ⟨[0, 1], 0, 0⟩ (by decide)).trans hpool, ?_, (hthreads (by decide)).2.1⟩
  obtain ⟨⟨_, result⟩, hrun, heq⟩ := Option.map_eq_some_iff.1 hpool
  obtain ⟨rfl, hafter⟩ := Prod.mk.inj heq
  rw [← hafter]
  exact (hrows _ result hrun).2.2

end SExprLang.Batch
