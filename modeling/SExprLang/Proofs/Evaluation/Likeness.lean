import SExprLang.Evaluation.Evaluate
import SExprLang.Proofs.Evaluation.InStep
import SExprLang.Vocabulary.Lemmas

/-!
# Runs that are alike

A `Likeness` says when two runs of the evaluator are to be taken for the same: which expressions, values, environments
and errors of the one answer to which of the other. It is a family of relations, and it is `Lawful` when it is compatible
with what the evaluator looks at: like expressions have the same shape, like environments bind what a program can name to
like values, and so on. Evaluation then keeps it: like expressions in like environments have like outcomes and leave like
environments, at every depth.

What can be said of one run is the case where both are the same. The relation on environments depends on a `World`, since
a called function works in an environment of its own; the actions that read programs as data (`Action.reflective`) are
left out.
-/

namespace SExprLang

open Eval

/-- Which expressions, values, environments and errors of one run answer to which of another. -/
structure Likeness (World : Type) where
  expression : Expression → Expression → Prop
  /-- The names that symbols of the program can have. -/
  name : String → Prop
  /-- The strings that the program can come to hold. -/
  text : String → Prop
  operation : Operation → Operation → Prop
  object : HostObject → HostObject → Prop
  environment : World → Environment → Environment → Prop
  /-- The identities that the two runs would give out next. -/
  supply : Identity → Identity → Prop
  error : EvalError → EvalError → Prop

namespace Likeness

variable {World : Type} (L : Likeness World)

/-! ## What a likeness relates -/

/-- Values of one kind with like contents. -/
inductive Values : Value → Value → Prop
  | nil : Values .nil .nil
  | bool (b : Bool) : Values (.bool b) (.bool b)
  | number (n : Double) : Values (.number n) (.number n)
  | string {s : String} : L.text s → Values (.string s) (.string s)
  | numbers (ns : List Double) : Values (.numbers ns) (.numbers ns)
  | strings (ss : List String) : Values (.strings ss) (.strings ss)
  | operation {o o' : Operation} : L.operation o o' → Values (.operation o) (.operation o')
  | host {a b : HostObject} : L.object a b → Values (.host a) (.host b)

/-- Expressions with the same root and like items. -/
inductive Roots : Expression → Expression → Prop
  | symbol {name : String} (p q : Position) : L.name name → Roots (.symbol name p) (.symbol name q)
  | number (value : Double) (l m : String) (p q : Position) : Roots (.number value l p) (.number value m q)
  | string {value : String} (p q : Position) : L.text value → Roots (.string value p) (.string value q)
  | list {items items' : List Expression} (p q : Position) : List.Forall₂ L.expression items items' →
      Roots (.list items p) (.list items' q)

/-- Contents that are the same, but for like bodies of functions. -/
inductive Contents : HostContent → HostContent → Prop
  | text (s : String) : Contents (.text s) (.text s)
  | integer (i : Int) : Contents (.integer i) (.integer i)
  | function (parameter : String) {body body' : Expression} : L.expression body body' →
      Contents (.function parameter body) (.function parameter body')

/-- The actions that keep a likeness. Queries make new strings. -/
def Keeps : Action → Prop
  | .standard _ | .feature _ => True
  | .query _ => ∀ s, L.text s
  | .reflective _ => False

/-- Strings that are the same and that the program can come to hold. -/
def Strings (s s' : String) : Prop := s = s' ∧ L.text s

/-- States with like environments and like supplies of identities. The events do not matter. -/
def Machines (w : World) (m n : Machine) : Prop :=
  L.environment w m.env n.env ∧ L.supply ⟨m.region, m.serial⟩ ⟨n.region, n.serial⟩

/-- Two runs that keep the likeness in a world. -/
def Runs {α β : Type} (w : World) (value : α → β → Prop) (a : Eval α) (b : Eval β) : Prop :=
  InStep (L.Machines w) L.error value a b

/-- A likeness that is compatible with what the evaluator looks at. -/
structure Lawful : Prop where
  roots {e e' : Expression} : L.expression e e' → L.Roots e e'
  render {e e' : Expression} : L.expression e e' → e.render = e'.render
  text_name {s : String} : L.text s → L.name s
  action {o o' : Operation} : L.operation o o' → o.action = o'.action ∧ L.Keeps o.action
  contents {a b : HostObject} : L.object a b → L.Contents a.content b.content
  lookup {w : World} {env env' : Environment} {s : String} : L.environment w env env' → L.name s →
    Option.Rel L.Values (env.get? s) (env'.get? s)
  define {w : World} {env env' : Environment} {s : String} {v v' : Value} : L.environment w env env' → L.text s →
    L.Values v v' → L.environment w (env.define s v) (env'.define s v')
  scope {w : World} {env env' : Environment} (parameter : String) {v v' : Value} : L.environment w env env' →
    L.Values v v' → ∃ w', L.environment w' (env.define parameter v) (env'.define parameter v')
  create {i j : Identity} (parameter : String) {body body' : Expression} : L.supply i j → L.expression body body' →
    L.object ⟨i, .function parameter body⟩ ⟨j, .function parameter body'⟩
  supply_next {i j : Identity} : L.supply i j → L.supply ⟨i.region, i.serial + 1⟩ ⟨j.region, j.serial + 1⟩
  unboundSymbol {name : String} {p q : Position} : L.expression (.symbol name p) (.symbol name q) →
    L.error (.unboundSymbol name p) (.unboundSymbol name q)
  notOperation {head head' : Expression} {arguments arguments' : List Expression} {p q : Position} (kind : Kind) :
    L.expression (.list (head :: arguments) p) (.list (head' :: arguments') q) →
    L.error (.notOperation kind head.render head.position) (.notOperation kind head'.render head'.position)
  notNumeral {e e' : Expression} (value : String) : L.expression e e' →
    L.error (.notNumeral value e.render e.position) (.notNumeral value e'.render e'.position)
  wrongKind {e e' : Expression} (target kind : Kind) : L.expression e e' →
    L.error (.wrongKind target kind e.render e.position) (.wrongKind target kind e'.render e'.position)
  missingArgument : L.error .missingArgument .missingArgument
  operation_error (message : String) : L.error (.operation message) (.operation message)

variable {L} {w : World}

/-- If like operations perform offered actions only, then so do those among like values. -/
theorem Values.offered {offered : Action → Prop} {v v' : Value} (h : L.Values v v')
    (hoffered : ∀ o o', L.operation o o' → offered o.action) :
    ∀ operation, v = .operation operation → offered operation.action := by
  rintro operation rfl
  cases h with
  | operation h => exact hoffered _ _ h

/-! ## What is like itself -/

theorem Values.refl {v : Value} (htext : ∀ s, L.text s) (hoperation : ∀ o, v = .operation o → L.operation o o)
    (hobject : ∀ a, v = .host a → L.object a a) : L.Values v v := by
  cases v with
  | nil => exact .nil
  | bool b => exact .bool b
  | number n => exact .number n
  | string s => exact .string (htext s)
  | numbers ns => exact .numbers ns
  | strings ss => exact .strings ss
  | operation o => exact .operation (hoperation o rfl)
  | host a => exact .host (hobject a rfl)

theorem Roots.refl {e : Expression} (hname : ∀ s, L.name s) (htext : ∀ s, L.text s)
    (hitems : ∀ items p, e = .list items p → ∀ item ∈ items, L.expression item item) : L.Roots e e := by
  cases e with
  | symbol name p => exact .symbol p p (hname name)
  | number value lexeme p => exact .number value lexeme lexeme p p
  | string value p => exact .string p p (htext value)
  | list items p => exact .list p p (List.forall₂_same.2 (hitems items p rfl))

theorem Contents.refl {content : HostContent}
    (hbody : ∀ parameter body, content = .function parameter body → L.expression body body) :
    L.Contents content content := by
  cases content with
  | text s => exact .text s
  | integer i => exact .integer i
  | function parameter body => exact .function parameter (hbody parameter body rfl)

theorem keeps_of_offers (htext : ∀ s, L.text s) {vocabulary : Vocabulary} (hcore : vocabulary ≠ .core) {action : Action}
    (h : vocabulary.Offers action) : L.Keeps action := by
  cases action with
  | standard _ => trivial
  | feature _ => trivial
  | query _ => exact htext
  | reflective r => exact absurd rfl (Vocabulary.ne_reflective_of_offers hcore h r)

/-- Arguments that agree item by item agree at every place. -/
theorem getElem?_alike {arguments arguments' : List Expression} (h : List.Forall₂ L.expression arguments arguments') :
    ∀ i : Nat, Option.Rel L.expression arguments[i]? arguments'[i]? := by
  induction h with
  | nil => exact fun _ => .none
  | cons he _ ih =>
    intro i
    cases i with
    | zero => exact .some he
    | succ i => exact ih i

namespace Lawful

variable (hL : L.Lawful)
include hL

/-! ## The state -/

theorem raise_operation {α β : Type} {value : α → β → Prop} (message : String) :
    L.Runs w value (raise (.operation message)) (raise (.operation message)) :=
  .raise (hL.operation_error message)

theorem lookup_runs {s s' : String} (hs : L.Strings s s') :
    L.Runs w (Option.Rel L.Values) (Eval.lookup s) (Eval.lookup s') := by
  obtain ⟨rfl, hs⟩ := hs
  exact fun _ _ hm => .value (hL.lookup hm.1 (hL.text_name hs)) hm

theorem define_runs {s s' : String} (hs : L.Strings s s') {v v' : Value} (hv : L.Values v v') :
    L.Runs w Eq (Eval.define s v) (Eval.define s' v') := by
  obtain ⟨rfl, hs⟩ := hs
  exact fun _ _ hm => .value rfl ⟨hL.define hm.1 hs hv, hm.2⟩

theorem fresh_runs : L.Runs w L.supply fresh fresh :=
  fun _ _ hm => .value hm.2 ⟨hm.1, hL.supply_next hm.2⟩

/-- A scope is a world of its own. What is left of it afterwards is the supply of identities. -/
theorem inScope_runs {α β : Type} {value : α → β → Prop} (parameter : String) {v v' : Value} (hv : L.Values v v')
    {a : Eval α} {b : Eval β} (hab : ∀ w', L.Runs w' value a b) :
    L.Runs w value (inScope parameter v a) (inScope parameter v' b) := by
  intro m n hm
  obtain ⟨w', henv⟩ := hL.scope parameter hm.1 hv
  have hends := hab w' { m with env := m.env.define parameter v } { n with env := n.env.define parameter v' }
    ⟨henv, hm.2⟩
  rw [start_inScope, start_inScope]
  generalize a.start _ = r, b.start _ = s at hends ⊢
  cases hends with
  | never => exact .never
  | value hv hs => exact .value hv ⟨hm.1, hs.2⟩
  | error he hs => exact .error he ⟨hm.1, hs.2⟩

end Lawful

end Likeness

end SExprLang
