import SExprLang.Proofs.Evaluation.Likeness

/-!
# Evaluation keeps a likeness

One lemma for each function of the evaluator says that it keeps a lawful likeness, given that the evaluations it asks for
do. From the actions the lemma for the whole evaluator follows by induction on the depth (`Lawful.evaluators`).
-/

namespace SExprLang

open Eval

namespace Likeness

variable {World : Type} {L : Likeness World} {w : World}

/-- Two evaluators that keep the likeness in every world. -/
def Evaluators (L : Likeness World) (evaluate evaluate' : Expression → Eval Value) : Prop :=
  ∀ w e e', L.expression e e' → L.Runs w L.Values (evaluate e) (evaluate' e')

namespace Lawful

variable (hL : L.Lawful) {evaluate evaluate' : Expression → Eval Value} (hev : L.Evaluators evaluate evaluate')
  {e e' : Expression} {slot slot' : Option Expression} {arguments arguments' : List Expression}
include hL

/-! ## Arguments -/

theorem asNumber_runs (he : L.expression e e') {v v' : Value} (hv : L.Values v v') :
    L.Runs w Eq (ofExcept (asNumber e v)) (ofExcept (asNumber e' v')) := by
  cases hv with
  | bool b => exact .pure rfl
  | number n => exact .pure rfl
  | @string s _ =>
    cases hread : Double.read? s with
    | none =>
      simp only [asNumber, hread]
      exact .raise (hL.notNumeral s he)
    | some n =>
      simp only [asNumber, hread]
      exact .pure rfl
  | _ => exact .raise (hL.wrongKind _ _ he)

theorem asString_runs (he : L.expression e e') {v v' : Value} (hv : L.Values v v') :
    L.Runs w L.Strings (ofExcept (asString e v)) (ofExcept (asString e' v')) := by
  cases hv with
  | string hs => exact .pure ⟨rfl, hs⟩
  | _ => exact .raise (hL.wrongKind _ _ he)

theorem asStrings_runs (he : L.expression e e') {v v' : Value} (hv : L.Values v v') :
    L.Runs w Eq (ofExcept (asStrings e v)) (ofExcept (asStrings e' v')) := by
  cases hv with
  | strings ss => exact .pure rfl
  | _ =>
    simp only [asStrings, hL.render he]
    exact hL.raise_operation _

theorem present_runs (hs : Option.Rel L.expression slot slot') : L.Runs w L.expression (present slot) (present slot') := by
  cases hs with
  | none => exact .raise hL.missingArgument
  | some he => exact .pure he

include hev

theorem valueArg_runs (hs : Option.Rel L.expression slot slot') :
    L.Runs w L.Values (valueArg evaluate slot) (valueArg evaluate' slot') :=
  (hL.present_runs hs).bind fun _ _ he => hev w _ _ he

theorem numberArg_runs (hs : Option.Rel L.expression slot slot') :
    L.Runs w Eq (numberArg evaluate slot) (numberArg evaluate' slot') :=
  (hL.present_runs hs).bind fun _ _ he => (hev w _ _ he).bind fun _ _ hv => hL.asNumber_runs he hv

theorem stringArg_runs (hs : Option.Rel L.expression slot slot') :
    L.Runs w L.Strings (stringArg evaluate slot) (stringArg evaluate' slot') :=
  (hL.present_runs hs).bind fun _ _ he => (hev w _ _ he).bind fun _ _ hv => hL.asString_runs he hv

theorem stringsArg_runs (hs : Option.Rel L.expression slot slot') :
    L.Runs w Eq (stringsArg evaluate slot) (stringsArg evaluate' slot') :=
  (hL.present_runs hs).bind fun _ _ he => (hev w _ _ he).bind fun _ _ hv => hL.asStrings_runs he hv

theorem numberArgs_runs (hargs : List.Forall₂ L.expression arguments arguments') :
    L.Runs w Eq (numberArgs evaluate arguments) (numberArgs evaluate' arguments') :=
  .mapM hargs fun _ _ he => hL.numberArg_runs hev (.some he)

theorem stringArgs_runs (hargs : List.Forall₂ L.expression arguments arguments') :
    L.Runs w Eq (stringArgs evaluate arguments) (stringArgs evaluate' arguments') :=
  .mapM hargs fun _ _ he => (hL.stringArg_runs hev (.some he)).mono fun _ _ hs => hs.1

/-! ## Standard actions -/

theorem repeatBody_runs {s s' : String} (hs : L.Strings s s') (he : L.expression e e') :
    ∀ (count : Nat) (first : Int), L.Runs w Eq (Action.Standard.repeatBody evaluate s e count first)
      (Action.Standard.repeatBody evaluate' s' e' count first)
  | 0, _ => .pure rfl
  | count + 1, first =>
    (hL.define_runs hs (.number _)).bind fun _ _ _ => (hev w _ _ he).bind fun _ _ _ =>
      repeatBody_runs hs he count (first + 1)

theorem call_runs {s s' : String} (hs : L.Strings s s') {v v' : Value} (hv : L.Values v v') :
    L.Runs w L.Values (Action.Standard.call evaluate s v) (Action.Standard.call evaluate' s' v') := by
  refine (hL.lookup_runs hs).bind fun found found' hfound => ?_
  obtain ⟨rfl, _⟩ := hs
  cases hfound with
  | none => exact hL.raise_operation _
  | some hf =>
    cases hf with
    | @host a b hab =>
      obtain ⟨i, content⟩ := a
      obtain ⟨j, content'⟩ := b
      cases hL.contents hab with
      | function parameter hbody => exact hL.inScope_runs parameter hv fun w' => hev w' _ _ hbody
      | text _ => exact hL.raise_operation _
      | integer _ => exact hL.raise_operation _
    | _ => exact hL.raise_operation _

theorem standard_runs (action : Action.Standard) (hargs : List.Forall₂ L.expression arguments arguments') :
    L.Runs w L.Values (action.perform evaluate arguments) (action.perform evaluate' arguments') := by
  have hat := getElem?_alike hargs
  cases action with
  | sequence => exact .foldlM hargs (fun _ _ _ _ _ he => hev w _ _ he) .nil
  | sum =>
    refine (hL.numberArgs_runs hev hargs).bind ?_
    rintro ns _ rfl
    exact .pure (.number _)
  | product =>
    refine (hL.numberArgs_runs hev hargs).bind ?_
    rintro ns _ rfl
    exact .pure (.number _)
  | nonemptyProduct =>
    cases hargs with
    | nil => exact hL.raise_operation _
    | cons he hrest =>
      refine (hL.numberArgs_runs hev (.cons he hrest)).bind ?_
      rintro ns _ rfl
      exact .pure (.number _)
  | assign =>
    exact (hL.stringArg_runs hev (hat 0)).bind fun _ _ hs => (hL.valueArg_runs hev (hat 1)).bind fun _ _ hv =>
      (hL.define_runs hs hv).bind fun _ _ _ => .pure .nil
  | loop =>
    refine (hL.stringArg_runs hev (hat 0)).bind fun _ _ hs => ?_
    refine (hL.numberArg_runs hev (hat 1)).bind ?_
    rintro first _ rfl
    refine (hL.numberArg_runs hev (hat 2)).bind ?_
    rintro last _ rfl
    exact (hL.present_runs (hat 3)).bind fun _ _ he => (hL.repeatBody_runs hev hs he _ _).bind fun _ _ _ => .pure .nil
  | ifNonzero =>
    refine (hL.numberArg_runs hev (hat 0)).bind ?_
    rintro condition _ rfl
    have hbranch : ∀ i : Nat, L.Runs w L.Values (Action.Standard.branchOrNil evaluate arguments[i]?)
        (Action.Standard.branchOrNil evaluate' arguments'[i]?) := by
      intro i
      have hi := hat i
      generalize arguments[i]? = slot, arguments'[i]? = slot' at hi ⊢
      cases hi with
      | none => exact .pure .nil
      | some he => exact hev w _ _ he
    split
    · exact hbranch 2
    · exact hbranch 1
  | ifAboveOne =>
    refine (hL.numberArg_runs hev (hat 0)).bind ?_
    rintro condition _ rfl
    split
    · exact hL.valueArg_runs hev (hat 1)
    · exact hL.valueArg_runs hev (hat 2)
  | defineFunction =>
    refine (hL.stringArg_runs hev (hat 0)).bind fun _ _ hs => ?_
    refine (hL.stringArg_runs hev (hat 1)).bind ?_
    rintro parameter _ ⟨rfl, _⟩
    refine (hL.present_runs (hat 2)).bind fun _ _ he => ?_
    refine hL.fresh_runs.bind fun _ _ hsupply => ?_
    exact (hL.define_runs hs (.host (hL.create parameter hsupply he))).bind fun _ _ _ => .pure .nil
  | callFunction =>
    exact (hL.stringArg_runs hev (hat 0)).bind fun _ _ hs => (hL.valueArg_runs hev (hat 1)).bind fun _ _ hv =>
      hL.call_runs hev hs hv

/-! ## Features and queries -/

theorem allTrueArgs_runs (hargs : List.Forall₂ L.expression arguments arguments') :
    L.Runs w Eq (Action.Feature.allTrueArgs evaluate arguments) (Action.Feature.allTrueArgs evaluate' arguments') := by
  induction hargs with
  | nil => exact .pure rfl
  | cons he _ ih =>
    refine (hev w _ _ he).bind fun v v' hv => ?_
    cases hv with
    | bool b =>
      cases b with
      | true => exact ih
      | false => exact .pure rfl
    | _ => exact hL.raise_operation _

theorem allNonzeroArgs_runs (hargs : List.Forall₂ L.expression arguments arguments') :
    L.Runs w Eq (Action.Feature.allNonzeroArgs evaluate arguments)
      (Action.Feature.allNonzeroArgs evaluate' arguments') := by
  induction hargs with
  | nil => exact .pure rfl
  | cons he _ ih =>
    refine (hL.numberArg_runs hev (.some he)).bind ?_
    rintro n _ rfl
    split
    · exact .pure rfl
    · exact ih

theorem feature_runs (action : Action.Feature) (hargs : List.Forall₂ L.expression arguments arguments') :
    L.Runs w L.Values (action.perform evaluate arguments) (action.perform evaluate' arguments') := by
  have hat := getElem?_alike hargs
  cases action with
  | vector =>
    refine (hL.numberArgs_runs hev hargs).bind ?_
    rintro ns _ rfl
    exact .pure (.numbers ns)
  | allTrue =>
    refine (hL.allTrueArgs_runs hev hargs).bind ?_
    rintro b _ rfl
    exact .pure (.bool b)
  | allNonzero =>
    refine (hL.allNonzeroArgs_runs hev hargs).bind ?_
    rintro b _ rfl
    exact .pure (.bool b)
  | member =>
    refine (hL.stringArg_runs hev (hat 0)).bind ?_
    rintro s _ ⟨rfl, _⟩
    refine (hL.stringsArg_runs hev (hat 1)).bind ?_
    rintro ss _ rfl
    exact .pure (.bool _)
  | assignStrings =>
    refine (hL.stringArg_runs hev (hat 0)).bind fun _ _ hs => ?_
    refine (hL.stringArgs_runs hev (List.forall₂_drop 1 hargs)).bind ?_
    rintro ss _ rfl
    exact (hL.define_runs hs (.strings ss)).bind fun _ _ _ => .pure .nil

theorem query_runs (htext : ∀ s, L.text s) (action : Action.Query)
    (hargs : List.Forall₂ L.expression arguments arguments') :
    L.Runs w L.Values (action.perform evaluate arguments) (action.perform evaluate' arguments') := by
  have hat := getElem?_alike hargs
  cases action with
  | select table label =>
    refine (hL.stringArgs_runs hev hargs).bind ?_
    rintro ss _ rfl
    exact .pure (.string (htext _))
  | conjunction =>
    refine (hL.stringArgs_runs hev hargs).bind ?_
    rintro ss _ rfl
    exact .pure (.string (htext _))
  | membership =>
    refine (hL.stringArg_runs hev (hat 0)).bind ?_
    rintro s _ ⟨rfl, _⟩
    refine (hL.stringsArg_runs hev (hat 1)).bind ?_
    rintro ss _ rfl
    exact .pure (.string (htext _))

theorem perform_runs {action : Action} (h : L.Keeps action) (hargs : List.Forall₂ L.expression arguments arguments') :
    L.Runs w L.Values (action.perform evaluate arguments) (action.perform evaluate' arguments') := by
  cases action with
  | standard action => exact hL.standard_runs hev action hargs
  | feature action => exact hL.feature_runs hev action hargs
  | query action => exact hL.query_runs hev h action hargs
  | reflective action => exact h.elim

omit hev

/-! ## The evaluator -/

theorem symbol_runs {name : String} {p q : Position} (hname : L.name name)
    (he : L.expression (.symbol name p) (.symbol name q)) (depth : Nat) :
    L.Runs w L.Values (SExprLang.evaluate (depth + 1) (.symbol name p))
      (SExprLang.evaluate (depth + 1) (.symbol name q)) := by
  have hlookup : L.Runs w (Option.Rel L.Values) (Eval.lookup name) (Eval.lookup name) :=
    fun _ _ hm => .value (hL.lookup hm.1 hname) hm
  refine hlookup.bind fun found found' hfound => ?_
  cases hfound with
  | none => exact .raise (hL.unboundSymbol he)
  | some hv => exact .pure hv

/-- **Like expressions have like outcomes.** -/
theorem evaluators : ∀ depth : Nat, L.Evaluators (SExprLang.evaluate depth) (SExprLang.evaluate depth)
  | 0, _, _, _, _ => .exhausted
  | depth + 1, w, e, e', he => by
    cases hL.roots he with
    | symbol p q hname => exact hL.symbol_runs hname he depth
    | number value l m p q => exact .pure (.number value)
    | string p q htext => exact .pure (.string htext)
    | list p q hitems =>
      cases hitems with
      | nil => exact .pure .nil
      | @cons head head' arguments arguments' hhead hargs =>
        refine (evaluators depth w head head' hhead).bind fun v v' hv => ?_
        cases hv with
        | @operation o o' ho =>
          obtain ⟨haction, hkeeps⟩ := hL.action ho
          refine InStep.bind (.report fun _ _ hm => hm) fun _ _ _ => ?_
          rw [← haction]
          exact hL.perform_runs (evaluators depth) hkeeps hargs
        | _ => exact .raise (hL.notOperation _ he)

end Lawful

end Likeness

end SExprLang
