import SExprLang.Evaluation.Evaluate
import SExprLang.Evaluation.Lemmas

/-!
# The depth that is granted

`Eval.Below a b` says that `b` ends as `a` does whenever `a` ends. All constructions of runs keep it, so every action
does more with an evaluator that does more, and an evaluation that ends within some depth ends in the same way within
every greater one (`evaluate_below`). Which depth is granted does not matter, as long as it suffices.
-/

namespace SExprLang

namespace Eval

/-- Whenever the first run ends, the second one ends in the same way. -/
def Below {α : Type} (a b : Eval α) : Prop :=
  ∀ machine result, a.start machine = some result → b.start machine = some result

namespace Below

variable {α β ι : Type}

/-! ## Runs -/

theorem refl (a : Eval α) : Below a a := fun _ _ h => h

theorem exhausted (a : Eval α) : Below exhausted a := fun _ _ h => nomatch h

theorem bind {a b : Eval α} {f g : α → Eval β} (hab : Below a b) (hfg : ∀ value, Below (f value) (g value)) :
    Below (a >>= f) (b >>= g) := by
  intro machine result h
  rw [start_bind] at h ⊢
  cases hfirst : a.start machine with
  | none =>
    rw [hfirst] at h
    cases h
  | some first =>
    obtain ⟨outcome, between⟩ := first
    rw [hfirst] at h
    rw [hab machine _ hfirst]
    cases outcome with
    | error error => exact h
    | ok value => exact hfg value between result h

theorem foldlM {f g : α → ι → Eval α} (hfg : ∀ a x, Below (f a x) (g a x)) (xs : List ι) (a : α) :
    Below (xs.foldlM f a) (xs.foldlM g a) := by
  induction xs generalizing a with
  | nil => exact .refl _
  | cons x xs ih =>
    rw [List.foldlM_cons, List.foldlM_cons]
    exact (hfg a x).bind ih

theorem mapM {f g : ι → Eval α} (hfg : ∀ x, Below (f x) (g x)) (xs : List ι) : Below (xs.mapM f) (xs.mapM g) := by
  induction xs with
  | nil => exact .refl _
  | cons x xs ih =>
    rw [List.mapM_cons, List.mapM_cons]
    exact (hfg x).bind fun _ => ih.bind fun _ => .refl _

theorem attempt {a b : Eval α} (hab : Below a b) : Below (attempt a) (attempt b) := by
  intro machine result h
  obtain ⟨ended, hended, rfl⟩ := Option.map_eq_some_iff.1 h
  exact congrArg (Option.map _) (hab machine ended hended)

theorem inScope {a b : Eval α} (hab : Below a b) (name : String) (value : Value) :
    Below (inScope name value a) (inScope name value b) := by
  intro machine result h
  rw [start_inScope] at h ⊢
  obtain ⟨ended, hended, rfl⟩ := Option.map_eq_some_iff.1 h
  rw [hab _ ended hended]
  rfl

/-! ## Arguments -/

section

variable {evaluate evaluate' : Expression → Eval Value} (h : ∀ e, Below (evaluate e) (evaluate' e))
include h

theorem valueArg (slot : Option Expression) : Below (valueArg evaluate slot) (valueArg evaluate' slot) :=
  (Below.refl (present slot)).bind h

theorem numberArg (slot : Option Expression) : Below (numberArg evaluate slot) (numberArg evaluate' slot) :=
  (Below.refl (present slot)).bind fun e => (h e).bind fun _ => .refl _

theorem stringArg (slot : Option Expression) : Below (stringArg evaluate slot) (stringArg evaluate' slot) :=
  (Below.refl (present slot)).bind fun e => (h e).bind fun _ => .refl _

theorem stringsArg (slot : Option Expression) : Below (stringsArg evaluate slot) (stringsArg evaluate' slot) :=
  (Below.refl (present slot)).bind fun e => (h e).bind fun _ => .refl _

theorem numberArgs (arguments : List Expression) :
    Below (numberArgs evaluate arguments) (numberArgs evaluate' arguments) :=
  .mapM (fun e => .numberArg h (some e)) arguments

theorem stringArgs (arguments : List Expression) :
    Below (stringArgs evaluate arguments) (stringArgs evaluate' arguments) :=
  .mapM (fun e => .stringArg h (some e)) arguments

end

end Below

end Eval

/-! ## Actions -/

section

open Eval

variable {evaluate evaluate' : Expression → Eval Value} (h : ∀ e, Below (evaluate e) (evaluate' e))
include h

namespace Action.Standard

theorem repeatBody_below (name : String) (body : Expression) : ∀ (count : Nat) (first : Int),
    Below (repeatBody evaluate name body count first) (repeatBody evaluate' name body count first)
  | 0, _ => .refl _
  | count + 1, first =>
    (Below.refl (define name _)).bind fun _ => (h body).bind fun _ => repeatBody_below name body count (first + 1)

theorem branchOrNil_below (slot : Option Expression) : Below (branchOrNil evaluate slot) (branchOrNil evaluate' slot) := by
  cases slot with
  | none => exact .refl _
  | some e => exact h e

theorem call_below (name : String) (argument : Value) :
    Below (call evaluate name argument) (call evaluate' name argument) := by
  refine (Below.refl (lookup name)).bind fun found => ?_
  split
  · exact (h _).inScope _ _
  · exact .refl _
  · exact .refl _

theorem perform_below (action : Standard) (arguments : List Expression) :
    Below (action.perform evaluate arguments) (action.perform evaluate' arguments) := by
  cases action with
  | sequence => exact .foldlM (fun _ e => h e) arguments _
  | sum => exact (Below.numberArgs h arguments).bind fun _ => .refl _
  | product => exact (Below.numberArgs h arguments).bind fun _ => .refl _
  | nonemptyProduct =>
    cases arguments with
    | nil => exact .refl _
    | cons e rest => exact (Below.numberArgs h (e :: rest)).bind fun _ => .refl _
  | assign => exact (Below.stringArg h _).bind fun _ => (Below.valueArg h _).bind fun _ => .refl _
  | loop =>
    refine (Below.stringArg h _).bind fun name => (Below.numberArg h _).bind fun first => ?_
    refine (Below.numberArg h _).bind fun last => (Below.refl (present _)).bind fun body => ?_
    exact (repeatBody_below h name body _ _).bind fun _ => .refl _
  | ifNonzero => exact (Below.numberArg h _).bind fun _ => branchOrNil_below h _
  | ifAboveOne => exact (Below.numberArg h _).bind fun _ => .valueArg h _
  | defineFunction => exact (Below.stringArg h _).bind fun _ => (Below.stringArg h _).bind fun _ => .refl _
  | callFunction =>
    exact (Below.stringArg h _).bind fun name => (Below.valueArg h _).bind fun argument => call_below h name argument

end Action.Standard

namespace Action.Feature

theorem allTrueArgs_below (arguments : List Expression) :
    Below (allTrueArgs evaluate arguments) (allTrueArgs evaluate' arguments) := by
  induction arguments with
  | nil => exact .refl _
  | cons e rest ih =>
    refine (h e).bind fun value => ?_
    split
    · exact ih
    · exact .refl _
    · exact .refl _

theorem allNonzeroArgs_below (arguments : List Expression) :
    Below (allNonzeroArgs evaluate arguments) (allNonzeroArgs evaluate' arguments) := by
  induction arguments with
  | nil => exact .refl _
  | cons e rest ih =>
    refine (Below.numberArg h (some e)).bind fun number => ?_
    split
    · exact .refl _
    · exact ih

theorem perform_below (action : Feature) (arguments : List Expression) :
    Below (action.perform evaluate arguments) (action.perform evaluate' arguments) := by
  cases action with
  | vector => exact (Below.numberArgs h arguments).bind fun _ => .refl _
  | allTrue => exact (allTrueArgs_below h arguments).bind fun _ => .refl _
  | allNonzero => exact (allNonzeroArgs_below h arguments).bind fun _ => .refl _
  | member => exact (Below.stringArg h _).bind fun _ => (Below.stringsArg h _).bind fun _ => .refl _
  | assignStrings => exact (Below.stringArg h _).bind fun _ => (Below.stringArgs h _).bind fun _ => .refl _

end Action.Feature

theorem Action.Query.perform_below (action : Query) (arguments : List Expression) :
    Below (action.perform evaluate arguments) (action.perform evaluate' arguments) := by
  cases action with
  | select table label => exact (Below.stringArgs h arguments).bind fun _ => .refl _
  | conjunction => exact (Below.stringArgs h arguments).bind fun _ => .refl _
  | membership => exact (Below.stringArg h _).bind fun _ => (Below.stringsArg h _).bind fun _ => .refl _

namespace Action.Reflective

theorem run_below (text : String) : Below (run evaluate text) (run evaluate' text) := by
  refine (Below.refl (report _)).bind fun _ => ?_
  cases compile text with
  | ok e => exact h e
  | error error => exact .refl _

theorem perform_below (action : Reflective) (arguments : List Expression) :
    Below (action.perform evaluate arguments) (action.perform evaluate' arguments) := by
  cases action with
  | attempt => exact (Below.refl (present _)).bind fun e => (h e).attempt.bind fun _ => .refl _
  | fail => exact (Below.stringArg h _).bind fun _ => .refl _
  | bindLocal =>
    refine (Below.stringArg h _).bind fun name => (Below.valueArg h _).bind fun value => ?_
    exact (Below.refl (present _)).bind fun body => (h body).inScope name value
  | lambda => exact (Below.stringArg h _).bind fun _ => .refl _
  | closure parameter body => exact (Below.valueArg h _).bind fun argument => (h body).inScope parameter argument
  | runText => exact (Below.stringArg h _).bind fun text => run_below h text
  | less => exact (Below.numberArg h _).bind fun _ => (Below.numberArg h _).bind fun _ => .refl _
  | equal => exact (Below.valueArg h _).bind fun _ => (Below.valueArg h _).bind fun _ => .refl _
  | number => exact (Below.numberArg h _).bind fun _ => .refl _
  | string => exact (Below.stringArg h _).bind fun _ => .refl _
  | display => exact (Below.valueArg h _).bind fun _ => .refl _
  | inspect => exact (Below.valueArg h _).bind fun _ => .refl _
  | kind => exact (Below.valueArg h _).bind fun _ => .refl _
  | strings => exact (Below.stringArgs h arguments).bind fun _ => .refl _
  | hostText => exact (Below.stringArg h _).bind fun _ => .refl _
  | exchange => exact (Below.stringArg h _).bind fun _ => (Below.valueArg h _).bind fun _ => .refl _
  | get => exact (Below.stringArg h _).bind fun _ => .refl _
  | unset => exact (Below.stringArg h _).bind fun _ => .refl _
  | isBound => exact (Below.stringArg h _).bind fun _ => .refl _
  -- The others look at the expressions of their arguments and evaluate none.
  | quote | count | position | isAtom | symbolName | size => exact .refl _

end Action.Reflective

/-- An action does more with an evaluator that does more. -/
theorem Action.perform_below (action : Action) (arguments : List Expression) :
    Below (action.perform evaluate arguments) (action.perform evaluate' arguments) := by
  cases action with
  | standard action => exact action.perform_below h arguments
  | feature action => exact action.perform_below h arguments
  | query action => exact action.perform_below h arguments
  | reflective action => exact action.perform_below h arguments

end

/-! ## The evaluator -/

open Eval

/-- **More depth keeps a finished evaluation.** -/
theorem evaluate_below {depth depth' : Nat} (hle : depth ≤ depth') (e : Expression) :
    Below (evaluate depth e) (evaluate depth' e) := by
  induction depth generalizing depth' e with
  | zero => exact .exhausted _
  | succ depth ih =>
    obtain ⟨depth', rfl⟩ : ∃ d, depth' = d + 1 := ⟨depth' - 1, by omega⟩
    have hmore : ∀ e, Below (evaluate depth e) (evaluate depth' e) := ih (by omega)
    match e with
    | .symbol _ _ | .number _ _ _ | .string _ _ | .list [] _ => exact .refl _
    | .list (head :: arguments) _ =>
      refine (hmore head).bind fun value => ?_
      cases value with
      | operation operation =>
        exact (Below.refl (report _)).bind fun _ => operation.action.perform_below hmore arguments
      | _ => exact .refl _

end SExprLang
