import SExprLang.Proofs.Evaluation.Isolation

/-!
# Guarantees

A `Guarantee` is a statement about runs that goes from the parts of a run to the whole, together with what it says of
the result: that the run ends, for example, or that it only reads. What it asks for is little, the rules for `pure`,
`raise` and `bind`, for looking up and for reporting; and most actions are made of nothing else. So an action has a
guarantee if the evaluations of its arguments do, where a writer needs in addition that binding a name has it
(`Guarantee.Permits`) and a call that calling has it (`Guarantee.perform_holds`).

The operations that come up in a run are those of a set of actions. No action makes a new one, which is why a guarantee
holds of computed heads too.
-/

namespace SExprLang

open Eval

/-- If the value is an operation, it performs one of the offered actions. -/
def Value.Over (offered : Action → Prop) (value : Value) : Prop :=
  ∀ operation, value = .operation operation → offered operation.action

/-- The actions that bind or unbind names in the environment they are performed in. -/
def Action.Writes : Action → Prop
  | standard action => action ∈ Standard.writers
  | feature action => action = .assignStrings
  | query _ => False
  | reflective action => action = .exchange ∨ action = .unset

/-- A statement about runs and their results that goes through the constructions of runs. -/
structure Guarantee (offered : Action → Prop) where
  /-- The statement about a run, with what it says of the result. -/
  Holds {α : Type} (result : α → Prop) (run : Eval α) : Prop
  pure {α : Type} {result : α → Prop} {v : α} : result v → Holds result (pure v)
  raise {α : Type} {result : α → Prop} (error : EvalError) : Holds result (raise error)
  bind {α β : Type} {first : α → Prop} {result : β → Prop} {run : Eval α} {next : α → Eval β} : Holds first run →
    (∀ v, first v → Holds result (next v)) → Holds result (run >>= next)
  lookup (name : String) : Holds (fun found => ∀ v ∈ found, Value.Over offered v) (lookup name)
  report (events : List Event) : Holds (fun _ => True) (report events)

namespace Guarantee

variable {offered : Action → Prop} (G : Guarantee offered)

/-- The guarantee holds of a run, whatever its result. -/
abbrev HoldsOf {α : Type} (run : Eval α) : Prop := G.Holds (fun _ => True) run

/-- The guarantee holds of a run that ends with an operation only if it is one of the offered ones. -/
abbrev HoldsOver (run : Eval Value) : Prop := G.Holds (Value.Over offered) run

/-- Binding names and creating functions have the guarantee. -/
structure Permits : Prop where
  define (name : String) {v : Value} : v.Over offered → G.HoldsOf (Eval.define name v)
  fresh : G.HoldsOf Eval.fresh

variable {G}

/-! ## Runs one after the other -/

section

variable {α ι : Type} {result : α → Prop}

theorem ofExcept (outcome : Except EvalError α) : G.HoldsOf (ofExcept outcome) := by
  cases outcome with
  | ok v => exact G.pure trivial
  | error error => exact G.raise error

theorem foldlM {xs : List ι} {f : α → ι → Eval α} (h : ∀ x ∈ xs, ∀ a, result a → G.Holds result (f a x)) {a : α}
    (ha : result a) : G.Holds result (xs.foldlM f a) := by
  induction xs generalizing a with
  | nil => exact G.pure ha
  | cons x xs ih =>
    rw [List.foldlM_cons]
    exact G.bind (h x List.mem_cons_self a ha) fun b hb => ih (fun y hy => h y (List.mem_cons_of_mem x hy)) hb

theorem mapM {xs : List ι} {f : ι → Eval α} (h : ∀ x ∈ xs, G.HoldsOf (f x)) : G.HoldsOf (xs.mapM f) := by
  induction xs with
  | nil => exact G.pure trivial
  | cons x xs ih =>
    rw [List.mapM_cons]
    refine G.bind (h x List.mem_cons_self) fun _ _ => ?_
    exact G.bind (ih fun y hy => h y (List.mem_cons_of_mem x hy)) fun _ _ => G.pure trivial

end

/-! ## Arguments -/

section

variable {evaluate : Expression → Eval Value} {slot : Option Expression} {arguments : List Expression}

theorem present (slot : Option Expression) : G.Holds (· ∈ slot) (present slot) := by
  cases slot with
  | none => exact G.raise _
  | some e => exact G.pure rfl

theorem valueArg (h : ∀ e ∈ slot, G.HoldsOver (evaluate e)) : G.HoldsOver (valueArg evaluate slot) :=
  G.bind (G.present slot) h

/-- An argument whose value is converted, in whatever way. -/
theorem convertedArg {α : Type} (convert : Expression → Value → Except EvalError α)
    (h : ∀ e ∈ slot, G.HoldsOver (evaluate e)) :
    G.HoldsOf (do
      let e ← Eval.present slot
      Eval.ofExcept (convert e (← evaluate e))) :=
  G.bind (G.present slot) fun e he => G.bind (h e he) fun _ _ => ofExcept _

theorem numberArg (h : ∀ e ∈ slot, G.HoldsOver (evaluate e)) : G.HoldsOf (numberArg evaluate slot) :=
  convertedArg asNumber h

theorem stringArg (h : ∀ e ∈ slot, G.HoldsOver (evaluate e)) : G.HoldsOf (stringArg evaluate slot) :=
  convertedArg asString h

theorem stringsArg (h : ∀ e ∈ slot, G.HoldsOver (evaluate e)) : G.HoldsOf (stringsArg evaluate slot) :=
  convertedArg asStrings h

theorem numberArgs (h : ∀ e ∈ arguments, G.HoldsOver (evaluate e)) : G.HoldsOf (numberArgs evaluate arguments) :=
  mapM fun e he => numberArg fun _ heq => Option.some.inj heq ▸ h e he

theorem stringArgs (h : ∀ e ∈ arguments, G.HoldsOver (evaluate e)) : G.HoldsOf (stringArgs evaluate arguments) :=
  mapM fun e he => stringArg fun _ heq => Option.some.inj heq ▸ h e he

end

/-! ## Actions -/

section

variable {evaluate : Expression → Eval Value} {arguments : List Expression}

/-- A loop has the guarantee, whatever its bounds, if its body does. -/
theorem repeatBody_holds (hG : G.Permits) (name : String) {body : Expression} (hbody : G.HoldsOver (evaluate body)) :
    ∀ (count : Nat) (first : Int), G.HoldsOf (Action.Standard.repeatBody evaluate name body count first)
  | 0, _ => G.pure trivial
  | count + 1, first =>
    G.bind (hG.define name nofun) fun _ _ => G.bind hbody fun _ _ => repeatBody_holds hG name hbody count (first + 1)

variable (hargs : ∀ e ∈ arguments, G.HoldsOver (evaluate e))
include hargs

theorem standard_holds {action : Action.Standard} (hwrites : action ∈ Action.Standard.writers → G.Permits)
    (hcall : action = .callFunction → ∀ name v, v.Over offered →
      G.HoldsOver (Action.Standard.call evaluate name v)) : G.HoldsOver (action.perform evaluate arguments) := by
  have hat : ∀ (i : Nat), ∀ e ∈ arguments[i]?, G.HoldsOver (evaluate e) := fun i e he =>
    hargs e (List.mem_of_getElem? he)
  cases action with
  | sequence => exact foldlM (fun e he _ _ => hargs e he) nofun
  | sum => exact G.bind (numberArgs hargs) fun _ _ => G.pure nofun
  | product => exact G.bind (numberArgs hargs) fun _ _ => G.pure nofun
  | nonemptyProduct =>
    cases arguments with
    | nil => exact G.raise _
    | cons e rest => exact G.bind (numberArgs hargs) fun _ _ => G.pure nofun
  | assign =>
    refine G.bind (stringArg (hat 0)) fun name _ => G.bind (valueArg (hat 1)) fun v hv => ?_
    exact G.bind ((hwrites (by decide)).define name hv) fun _ _ => G.pure nofun
  | loop =>
    refine G.bind (stringArg (hat 0)) fun name _ => G.bind (numberArg (hat 1)) fun first _ => ?_
    refine G.bind (numberArg (hat 2)) fun last _ => G.bind (G.present _) fun body hbody => ?_
    exact G.bind (repeatBody_holds (hwrites (by decide)) name (hat 3 body hbody) _ _) fun _ _ => G.pure nofun
  | ifNonzero =>
    have hbranch : ∀ i : Nat, G.HoldsOver (Action.Standard.branchOrNil evaluate arguments[i]?) := by
      intro i
      cases harg : arguments[i]? with
      | none => exact G.pure nofun
      | some e => exact hat i e harg
    refine G.bind (numberArg (hat 0)) fun condition _ => ?_
    split
    · exact hbranch 2
    · exact hbranch 1
  | ifAboveOne =>
    refine G.bind (numberArg (hat 0)) fun condition _ => ?_
    split
    · exact valueArg (hat 1)
    · exact valueArg (hat 2)
  | defineFunction =>
    have hpermits : G.Permits := hwrites (by decide)
    refine G.bind (stringArg (hat 0)) fun name _ => G.bind (stringArg (hat 1)) fun parameter _ => ?_
    refine G.bind (G.present _) fun body _ => G.bind hpermits.fresh fun identity _ => ?_
    exact G.bind (hpermits.define name nofun) fun _ _ => G.pure nofun
  | callFunction =>
    exact G.bind (stringArg (hat 0)) fun name _ => G.bind (valueArg (hat 1)) fun v hv => hcall rfl name v hv

theorem allTrueArgs_holds : G.HoldsOf (Action.Feature.allTrueArgs evaluate arguments) := by
  induction arguments with
  | nil => exact G.pure trivial
  | cons e rest ih =>
    refine G.bind (hargs e List.mem_cons_self) fun v _ => ?_
    split
    · exact ih fun e' he' => hargs e' (List.mem_cons_of_mem e he')
    · exact G.pure trivial
    · exact G.raise _

theorem allNonzeroArgs_holds : G.HoldsOf (Action.Feature.allNonzeroArgs evaluate arguments) := by
  induction arguments with
  | nil => exact G.pure trivial
  | cons e rest ih =>
    refine G.bind (numberArg fun _ heq => Option.some.inj heq ▸ hargs e List.mem_cons_self) fun number _ => ?_
    split
    · exact G.pure trivial
    · exact ih fun e' he' => hargs e' (List.mem_cons_of_mem e he')

theorem feature_holds {action : Action.Feature} (hwrites : action = .assignStrings → G.Permits) :
    G.HoldsOver (action.perform evaluate arguments) := by
  have hat : ∀ (i : Nat), ∀ e ∈ arguments[i]?, G.HoldsOver (evaluate e) := fun i e he =>
    hargs e (List.mem_of_getElem? he)
  cases action with
  | vector => exact G.bind (numberArgs hargs) fun _ _ => G.pure nofun
  | allTrue => exact G.bind (allTrueArgs_holds hargs) fun _ _ => G.pure nofun
  | allNonzero => exact G.bind (allNonzeroArgs_holds hargs) fun _ _ => G.pure nofun
  | member => exact G.bind (stringArg (hat 0)) fun _ _ => G.bind (stringsArg (hat 1)) fun _ _ => G.pure nofun
  | assignStrings =>
    refine G.bind (stringArg (hat 0)) fun name _ => ?_
    refine G.bind (stringArgs fun e he => hargs e (List.mem_of_mem_drop he)) fun values _ => ?_
    exact G.bind ((hwrites rfl).define name nofun) fun _ _ => G.pure nofun

theorem query_holds (action : Action.Query) : G.HoldsOver (action.perform evaluate arguments) := by
  have hat : ∀ (i : Nat), ∀ e ∈ arguments[i]?, G.HoldsOver (evaluate e) := fun i e he =>
    hargs e (List.mem_of_getElem? he)
  cases action with
  | select table label => exact G.bind (stringArgs hargs) fun _ _ => G.pure nofun
  | conjunction => exact G.bind (stringArgs hargs) fun _ _ => G.pure nofun
  | membership => exact G.bind (stringArg (hat 0)) fun _ _ => G.bind (stringsArg (hat 1)) fun _ _ => G.pure nofun

/-- **An action has a guarantee that the evaluations of its arguments have.** A writer needs it of binding, a call of
calling. -/
theorem perform_holds {action : Action} (hplain : ∀ r, action ≠ .reflective r) (hwrites : action.Writes → G.Permits)
    (hcall : action = .standard .callFunction → ∀ name v, v.Over offered →
      G.HoldsOver (Action.Standard.call evaluate name v)) : G.HoldsOver (action.perform evaluate arguments) := by
  cases action with
  | standard action => exact standard_holds hargs hwrites fun h => hcall (congrArg Action.standard h)
  | feature action => exact feature_holds hargs hwrites
  | query action => exact query_holds hargs action
  | reflective r => exact absurd rfl (hplain r)

end

/-! ## The evaluator -/

theorem symbol_holds (depth : Nat) (name : String) (p : Position) :
    G.HoldsOver (evaluate (depth + 1) (.symbol name p)) := by
  refine G.bind (G.lookup name) fun found hfound => ?_
  cases found with
  | none => exact G.raise _
  | some v => exact G.pure (hfound v rfl)

/-- The step from the head of a list and what it performs to the list. -/
theorem list_holds {depth : Nat} {head : Expression} {arguments : List Expression} {p : Position}
    (hhead : G.HoldsOver (evaluate depth head))
    (hperform : ∀ action, offered action → G.HoldsOver (action.perform (evaluate depth) arguments)) :
    G.HoldsOver (evaluate (depth + 1) (.list (head :: arguments) p)) := by
  refine G.bind hhead fun v hv => ?_
  cases v with
  | operation operation => exact G.bind (G.report _) fun _ _ => hperform operation.action (hv operation rfl)
  | _ => exact G.raise _

end Guarantee

end SExprLang
