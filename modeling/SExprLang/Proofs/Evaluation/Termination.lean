import SExprLang.Proofs.Evaluation.Depth
import SExprLang.Proofs.Evaluation.Guarantee

/-!
# Programs that do not call end

An action other than a call evaluates nothing but its own arguments. However often it does so, and whatever they write,
an evaluation inside another one is then of a smaller expression. So a program ends that has no way to call, with a value
or with an error, and with no more evaluations inside each other than the expression has levels (`evaluate_halts`). The
environment may change on the way, the operations themselves included; `Eval.Halts` is the statement about one run, for
every environment over the same actions.
-/

namespace SExprLang

/-! ## Levels of an expression -/

namespace Expression

mutual

/-- The number of levels of the tree: one for an atom or an empty list, and one more for every list around it. -/
def height : Expression → Nat
  | list items _ => heightOfItems items + 1
  | _ => 1

/-- The number of levels of the highest of some trees. -/
def heightOfItems : List Expression → Nat
  | [] => 0
  | e :: rest => max e.height (heightOfItems rest)

end

theorem one_le_height (e : Expression) : 1 ≤ e.height := by
  cases e <;> simp [height]

theorem height_le_heightOfItems {item : Expression} {items : List Expression} (h : item ∈ items) :
    item.height ≤ heightOfItems items := by
  induction items with
  | nil => cases h
  | cons e rest ih =>
    rw [heightOfItems]
    rcases List.mem_cons.1 h with rfl | hrest
    · omega
    · have := ih hrest
      omega

theorem height_item_lt {item : Expression} {items : List Expression} (h : item ∈ items) (p : Position) :
    item.height < (list items p).height := by
  have := height_le_heightOfItems h
  rw [height]
  omega

end Expression

/-! ## Runs that end -/

/-- Started in an environment over the offered actions, the run ends, in such an environment again, and `result` holds of
its value if it has one. -/
def Eval.Halts {α : Type} (offered : Action → Prop) (result : α → Prop) (run : Eval α) : Prop :=
  ∀ machine, machine.env.Over offered → ∃ outcome after, run.start machine = some (outcome, after) ∧
    after.env.Over offered ∧ ∀ v, outcome = .ok v → result v

open Eval

/-- Ending is a guarantee: it takes the end of every part. -/
def Guarantee.halting (offered : Action → Prop) : Guarantee offered where
  Holds := Halts offered
  pure hv machine hover := ⟨.ok _, machine, rfl, hover, fun _ heq => Except.ok.inj heq ▸ hv⟩
  raise error machine hover := ⟨.error error, machine, rfl, hover, nofun⟩
  bind := by
    intro α β first result run next hrun hnext machine hover
    obtain ⟨outcome, between, hstart, hbetween, hfirst⟩ := hrun machine hover
    rw [start_bind, hstart]
    cases outcome with
    | error error => exact ⟨.error error, between, rfl, hbetween, nofun⟩
    | ok v => exact hnext v (hfirst v rfl) between hbetween
  lookup name machine hover := by
    refine ⟨.ok (machine.env.get? name), machine, rfl, hover, ?_⟩
    rintro _ ⟨⟩ v hv operation rfl
    exact hover name operation hv
  report events machine hover :=
    ⟨.ok (), { machine with events := events.reverse ++ machine.events }, rfl, hover, fun _ _ => trivial⟩

/-- Writing ends, and a value that a run has come by brings no new action into the environment. -/
theorem Guarantee.halting_permits (offered : Action → Prop) : (halting offered).Permits where
  define name v hv machine hover :=
    ⟨.ok (), { machine with env := machine.env.define name v }, rfl, hover.define name hv, fun _ _ => trivial⟩
  fresh machine hover :=
    ⟨.ok _, { machine with serial := machine.serial + 1 }, rfl, hover, fun _ _ => trivial⟩

/-! ## Programs without calls -/

/-- The actions of the standard, feature and query families other than the call of a function. -/
def Action.IsCallFree : Action → Prop
  | standard action => action ≠ .callFunction
  | feature _ | query _ => True
  | reflective _ => False

theorem Action.IsCallFree.ne_reflective {action : Action} (h : action.IsCallFree) (r : Action.Reflective) :
    action ≠ .reflective r := by
  rintro rfl
  exact h

/-- An evaluation ends within a depth of as many evaluations as the expression has levels. -/
theorem halts_of_height_le : ∀ (depth : Nat) (e : Expression), e.height ≤ depth →
    (Guarantee.halting Action.IsCallFree).HoldsOver (evaluate depth e)
  | 0, e, h => absurd h (by have := e.one_le_height; omega)
  | _ + 1, .number _ _ _, _ => Guarantee.pure _ nofun
  | _ + 1, .string _ _, _ => Guarantee.pure _ nofun
  | depth + 1, .symbol name p, _ => Guarantee.symbol_holds depth name p
  | _ + 1, .list [] _, _ => Guarantee.pure _ nofun
  | depth + 1, .list (head :: arguments) p, h => by
    have hitem : ∀ e ∈ head :: arguments, e.height ≤ depth := by
      intro e he
      have := Expression.height_item_lt he p
      omega
    refine Guarantee.list_holds (halts_of_height_le depth head (hitem head List.mem_cons_self)) fun action haction => ?_
    refine Guarantee.perform_holds (fun e he => halts_of_height_le depth e (hitem e (List.mem_cons_of_mem head he)))
      haction.ne_reflective (fun _ => Guarantee.halting_permits _) ?_
    rintro rfl
    exact absurd rfl haction

/-- **A program that cannot call ends.** If no bound operation calls functions, an evaluation has an outcome, whatever
else is bound, however long its loops are and whatever is written on the way. It takes no more evaluations inside each
other than the expression has levels, and to grant more makes no difference. The environment that is left is again one
without calls. -/
theorem evaluate_halts (e : Expression) {machine : Machine} (hover : machine.env.Over Action.IsCallFree) :
    ∃ outcome after, after.env.Over Action.IsCallFree ∧
      ∀ depth, e.height ≤ depth → (evaluate depth e).start machine = some (outcome, after) := by
  obtain ⟨outcome, after, hrun, hafter, _⟩ := halts_of_height_le e.height e (Nat.le_refl _) machine hover
  exact ⟨outcome, after, hafter, fun depth hle => evaluate_below hle e machine _ hrun⟩

/-- A loop up to a bound that is read at run time, under a name that was bound to it just before, whose body binds the name
of yet another operation: four levels suffice, three do not, and more change nothing. -/
theorem evaluate_halts_rebound :
    let p : Position := ⟨1, 1⟩
    let operation (serial : Nat) (action : Action.Standard) : Value := .operation ⟨⟨0, serial⟩, .standard action⟩
    let e : Expression := .list [.symbol "prog" p,
      .list [.symbol "set" p, .string "*" p, .symbol "loop" p] p,
      .list [.symbol "*" p, .string "i" p, .number .one "1" p, .symbol "n" p,
        .list [.symbol "set" p, .string "+" p, .symbol "prog" p] p] p,
      .list [.symbol "+" p, .string "last" p, .symbol "i" p] p] p
    let machine : Machine := Machine.mk (Environment.ofList [("prog", operation 0 .sequence), ("set", operation 1 .assign),
      ("loop", operation 2 .loop), ("n", .number (.ofInt 3))]) 0 3 []
    machine.env.Over Action.IsCallFree ∧ e.height = 4 ∧ (evaluate 3 e).start machine = none ∧
      ((evaluate evaluationDepth e).start machine).map (·.1) = some (.ok (.number (.ofInt 3))) := by
  intro p operation e machine
  have hover : machine.env.Over Action.IsCallFree := by
    intro name o hget
    rcases Environment.get?_extend hget with hmem | hempty
    · simp only [operation, List.mem_cons, Prod.mk.injEq, Value.operation.injEq, reduceCtorEq, and_false,
        List.not_mem_nil, or_false] at hmem
      rcases hmem with ⟨_, rfl⟩ | ⟨_, rfl⟩ | ⟨_, rfl⟩ <;> exact nofun
    · cases hempty
  have hheight : e.height = 4 := by decide
  have hrun : ((evaluate 4 e).start machine).map (·.1) = some (.ok (.number (.ofInt 3))) := by decide +kernel
  refine ⟨hover, hheight, by decide +kernel, ?_⟩
  obtain ⟨outcome, after, _, hends⟩ := evaluate_halts e hover
  rw [hends 4 (by omega)] at hrun
  rw [hends evaluationDepth (by rw [hheight]; decide)]
  exact hrun

end SExprLang
