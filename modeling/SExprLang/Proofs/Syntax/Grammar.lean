import Mathlib.Data.List.Infix
import SExprLang.Expression

/-!
# The grammar of expressions

`Spells es ts` says that the tokens `ts` are the expressions `es` one after the other: an atom is one token, and a list is
an opening parenthesis, the tokens of its items and a closing parenthesis. Tokens that end before the list they are in
are `Pending`.

The `depth` of tokens counts the parentheses that they open less those that they close. It tells the two apart: tokens
that spell something have depth zero and none of their beginnings has a negative one (`Spells.depth_eq`,
`Spells.above`), and in pending tokens the list that the end is in is the last one that is never closed
(`Pending.innermostOpen`).
-/

namespace SExprLang

/-- The atom that a token is by itself. -/
def Token.atom? (token : Token) : Option Expression :=
  match token.kind with
  | .symbol name => some (.symbol name token.position)
  | .number value => some (.number value token.lexeme token.position)
  | .string value => some (.string value token.position)
  | .listOpen | .listClose => none

namespace Syntax

/-- The tokens of a sequence of expressions. -/
inductive Spells : List Expression → List Token → Prop
  | nil : Spells [] []
  | atom {token : Token} {e : Expression} {es : List Expression} {ts : List Token} : token.atom? = some e →
      Spells es ts → Spells (e :: es) (token :: ts)
  | list {opening closing : Token} {items es : List Expression} {us ts : List Token} : opening.kind = .listOpen →
      closing.kind = .listClose → Spells items us → Spells es ts →
      Spells (.list items opening.position :: es) (opening :: (us ++ closing :: ts))

/-- `Pending p ts q` says that the tokens `ts` end inside the list opened at `q` when they stand inside the list opened at
`p`. -/
inductive Pending : Position → List Token → Position → Prop
  | here {p : Position} {es : List Expression} {us : List Token} : Spells es us → Pending p us p
  | inside {p q : Position} {es : List Expression} {opening : Token} {us vs : List Token} : Spells es us →
      opening.kind = .listOpen → Pending opening.position vs q → Pending p (us ++ opening :: vs) q

theorem Spells.append {es fs : List Expression} {ts us : List Token} (h : Spells es ts) (h' : Spells fs us) :
    Spells (es ++ fs) (ts ++ us) := by
  induction h with
  | nil => exact h'
  | atom ha _ ih => exact .atom ha ih
  | list ho hc hus _ _ ih =>
    rw [List.cons_append, List.cons_append, List.append_assoc]
    exact .list ho hc hus ih

theorem Spells.ne_nil {e : Expression} {ts : List Token} (h : Spells [e] ts) : ts ≠ [] := by
  cases h <;> simp

/-! ## Depth -/

/-- What a token adds to the number of open lists. -/
def level (token : Token) : Int :=
  match token.kind with
  | .listOpen => 1
  | .listClose => -1
  | _ => 0

/-- The lists that tokens open less those that they close. -/
def depth : List Token → Int
  | [] => 0
  | token :: ts => level token + depth ts

@[simp]
theorem depth_nil : depth [] = 0 := rfl

@[simp]
theorem depth_cons (token : Token) (ts : List Token) : depth (token :: ts) = level token + depth ts := rfl

@[simp]
theorem depth_append (ts us : List Token) : depth (ts ++ us) = depth ts + depth us := by
  induction ts with
  | nil => simp
  | cons token ts ih => rw [List.cons_append, depth_cons, depth_cons, ih]; omega

theorem level_open {token : Token} (h : token.kind = .listOpen) : level token = 1 := by simp [level, h]

theorem level_close {token : Token} (h : token.kind = .listClose) : level token = -1 := by simp [level, h]

theorem level_atom {token : Token} {e : Expression} (h : token.atom? = some e) : level token = 0 := by
  unfold Token.atom? at h
  unfold level
  cases hk : token.kind <;> simp_all

theorem neg_one_le_level (token : Token) : -1 ≤ level token := by
  unfold level
  split <;> omega

/-- Tokens with no beginning of a depth below `n`. -/
def Above (n : Int) (ts : List Token) : Prop := ∀ q, q <+: ts → n ≤ depth q

theorem Above.nil {n : Int} (hn : n ≤ 0) : Above n [] := by
  intro q hq
  rw [List.prefix_nil.1 hq]
  exact hn

theorem Above.cons {n : Int} {token : Token} {ts : List Token} (hn : n ≤ 0) (h : Above (n - level token) ts) :
    Above n (token :: ts) := by
  intro q hq
  rcases List.prefix_cons_iff.1 hq with rfl | ⟨r, rfl, hr⟩
  · exact hn
  · have := h r hr
    rw [depth_cons]
    omega

theorem Above.append {n : Int} {ts us : List Token} (h : Above n ts) (h' : Above (n - depth ts) us) :
    Above n (ts ++ us) := by
  rintro q ⟨r, hr⟩
  rcases List.append_eq_append_iff.1 hr with ⟨s, rfl, _⟩ | ⟨s, rfl, hus⟩
  · exact h q (List.prefix_append q s)
  · have := h' s ⟨r, hus.symm⟩
    rw [depth_append]
    omega

theorem Above.mono {m n : Int} {ts : List Token} (hmn : m ≤ n) (h : Above n ts) : Above m ts :=
  fun q hq => Int.le_trans hmn (h q hq)

/-- Tokens whose depth is below zero have a beginning of depth minus one, since the depth falls by at most one at a
time. -/
theorem exists_prefix_of_depth_neg {ts : List Token} (h : depth ts < 0) : ∃ q, q <+: ts ∧ depth q = -1 := by
  induction ts using List.reverseRecOn with
  | nil => simp at h
  | append_singleton ts token ih =>
    by_cases hts : depth ts < 0
    · obtain ⟨q, hq, hdepth⟩ := ih hts
      exact ⟨q, hq.trans (List.prefix_append ts [token]), hdepth⟩
    · have hlevel := neg_one_le_level token
      simp only [depth_append, depth_cons, depth_nil] at h
      exact ⟨ts ++ [token], List.prefix_refl _, by simp; omega⟩

/-! ## The depth of what is spelled -/

/-- Tokens that spell something close every list that they open. -/
theorem Spells.depth_eq {es : List Expression} {ts : List Token} (h : Spells es ts) : depth ts = 0 := by
  induction h with
  | nil => rfl
  | atom ha _ ih => rw [depth_cons, level_atom ha, ih, Int.add_zero]
  | list ho hc _ _ ih₁ ih₂ =>
    rw [depth_cons, depth_append, depth_cons, level_open ho, level_close hc, ih₁, ih₂]
    omega

/-- Tokens that spell something close no list that they do not open. -/
theorem Spells.above {es : List Expression} {ts : List Token} (h : Spells es ts) : Above 0 ts := by
  induction h with
  | nil => exact .nil (Int.le_refl 0)
  | atom ha _ ih =>
    refine .cons (Int.le_refl 0) ?_
    rw [level_atom ha]
    exact ih
  | list ho hc hus _ ih₁ ih₂ =>
    refine .cons (Int.le_refl 0) (.append (ih₁.mono ?_) (.cons ?_ (ih₂.mono ?_)))
    · rw [level_open ho]; omega
    · rw [level_open ho, hus.depth_eq]; omega
    · rw [level_open ho, hus.depth_eq, level_close hc]; omega

/-- Pending tokens close no list that they do not open. -/
theorem Pending.above {p q : Position} {ts : List Token} (h : Pending p ts q) : Above 0 ts := by
  induction h with
  | here hs => exact hs.above
  | inside hs ho _ ih =>
    refine .append hs.above (.cons ?_ (ih.mono ?_))
    · rw [hs.depth_eq]; omega
    · rw [hs.depth_eq, level_open ho]; omega

/-! ## The innermost open list -/

/-- Whether the tokens after an opening parenthesis close its list: the depth falls back to where it was before the
parenthesis. -/
def IsClosed (ts : List Token) : Prop := ∃ q, q <+: ts ∧ depth q = -1

/-- The last list that is opened and not closed was opened at `p`. -/
def InnermostOpen (ts : List Token) (p : Position) : Prop :=
  ∃ us opening vs, ts = us ++ opening :: vs ∧ opening.kind = .listOpen ∧ opening.position = p ∧ ¬IsClosed vs ∧
    ∀ us' opening' vs', vs = us' ++ opening' :: vs' → opening'.kind = .listOpen → IsClosed vs'

/-- Every list that is opened in tokens that spell something is closed in them. -/
theorem Spells.isClosed {es : List Expression} {us vs : List Token} {opening : Token}
    (h : Spells es (us ++ opening :: vs)) (ho : opening.kind = .listOpen) : IsClosed vs := by
  have hall := h.depth_eq
  have hus := h.above us (List.prefix_append us _)
  rw [depth_append, depth_cons, level_open ho] at hall
  exact exists_prefix_of_depth_neg (by omega)

/-- **Pending tokens end inside the last list that they do not close.** -/
theorem Pending.innermostOpen {opening : Token} {ts : List Token} {q : Position} (ho : opening.kind = .listOpen)
    (h : Pending opening.position ts q) : InnermostOpen (opening :: ts) q := by
  generalize hp : opening.position = p at h
  induction h generalizing opening with
  | here hs =>
    refine ⟨[], opening, _, rfl, ho, hp, ?_, ?_⟩
    · rintro ⟨q, hq, hdepth⟩
      have := hs.above q hq
      omega
    · rintro us' opening' vs' rfl ho'
      exact hs.isClosed ho'
  | @inside _ _ _ opening' us vs _ ho' _ ih =>
    obtain ⟨us', opening'', vs', heq, hrest⟩ := ih ho' rfl
    exact ⟨opening :: us ++ us', opening'', vs', by rw [List.append_assoc, ← heq]; rfl, hrest⟩

end Syntax

end SExprLang
