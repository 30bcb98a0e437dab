import SExprLang.Expression.OfTokens
import SExprLang.Proofs.Syntax.Grammar

/-!
# What parsing makes of tokens

`Outcome ts r` lists what tokens can be: none at all, a closing parenthesis first, a list that is not closed, one
expression, or one expression with more after it. Every sequence of tokens is one of these (`exists_outcome`), and
parsing gives the result that belongs to it (`ofTokens_eq_iff`). `ofTokens_exact` says when each result occurs in terms
of the tokens alone.
-/

namespace SExprLang.Syntax

open Expression

/-! ## Parsing inside a list -/

section Inside

variable {rest : List Token} {frame : Frame} {outer : List Frame}

/-- An atom is placed as it is. -/
theorem parse_atom {token : Token} {e : Expression} {stack : List Frame} (h : token.atom? = some e) :
    parse (token :: rest) stack = place e rest (parse rest) stack := by
  unfold Token.atom? at h
  cases hk : token.kind <;> simp only [hk, Option.some.injEq, reduceCtorEq] at h <;> subst h <;> simp [parse, hk]

theorem parse_open {token : Token} {stack : List Frame} (h : token.kind = .listOpen) :
    parse (token :: rest) stack = parse rest (⟨token.position, []⟩ :: stack) := by
  simp [parse, h]

theorem parse_close {token : Token} (h : token.kind = .listClose) :
    parse (token :: rest) (frame :: outer) = place frame.close rest (parse rest) outer := by
  simp [parse, h]

/-- Tokens that spell expressions add these to the innermost list. -/
theorem parse_spells {es : List Expression} {ts : List Token} (h : Spells es ts) :
    parse (ts ++ rest) (frame :: outer) = parse rest (⟨frame.position, es.reverse ++ frame.items⟩ :: outer) := by
  induction h generalizing rest frame outer with
  | nil => rfl
  | atom ha _ ih =>
    rw [List.cons_append, parse_atom ha, place, ih]
    simp [Frame.add]
  | list ho hc _ _ ih₁ ih₂ =>
    rw [List.cons_append, parse_open ho, List.append_assoc, ih₁, List.cons_append, parse_close hc, place, ih₂]
    simp [Frame.add, Frame.close]

/-- Pending tokens are reported with the list that they end in. -/
theorem parse_pending {p q : Position} {ts : List Token} (h : Pending p ts q) (hp : frame.position = p) :
    parse ts (frame :: outer) = .error (.unclosed q) := by
  induction h generalizing frame outer with
  | @here p es us hs =>
    rw [← List.append_nil us, parse_spells hs, parse, hp]
  | inside hs ho _ ih => rw [parse_spells hs, parse_open ho, ih rfl]

end Inside

/-! ## What tokens can be -/

/-- A token is an atom, an opening or a closing parenthesis. -/
theorem token_cases (token : Token) :
    (∃ e, token.atom? = some e) ∨ token.kind = .listOpen ∨ token.kind = .listClose := by
  unfold Token.atom?
  cases token.kind <;> simp

/-- Tokens inside the list opened at `p`: they close it at some point, or they are pending. -/
def Inside (p : Position) (ts : List Token) : Prop :=
  (∃ es us closing rest, ts = us ++ closing :: rest ∧ Spells es us ∧ closing.kind = .listClose) ∨ ∃ q, Pending p ts q

theorem Inside.prepend {p : Position} {es : List Expression} {us ts : List Token} (hus : Spells es us)
    (h : Inside p ts) : Inside p (us ++ ts) := by
  rcases h with ⟨fs, vs, closing, rest, rfl, hvs, hc⟩ | ⟨q, hq⟩
  · exact Or.inl ⟨es ++ fs, us ++ vs, closing, rest, by simp, hus.append hvs, hc⟩
  · refine Or.inr ⟨q, ?_⟩
    cases hq with
    | here hvs => exact .here (hus.append hvs)
    | inside hvs ho hrest =>
      rw [← List.append_assoc]
      exact .inside (hus.append hvs) ho hrest

theorem inside (p : Position) (ts : List Token) : Inside p ts := by
  -- by length: after an inner list the tokens are taken up again in the outer one
  induction hn : ts.length using Nat.strong_induction_on generalizing p ts with
  | _ n ih =>
    cases ts with
    | nil => exact Or.inr ⟨p, .here .nil⟩
    | cons token ts =>
      simp only [List.length_cons] at hn
      rcases token_cases token with ⟨e, ha⟩ | ho | hc
      · exact Inside.prepend (.atom ha .nil) (ih ts.length (by omega) p ts rfl)
      · rcases ih ts.length (by omega) token.position ts rfl with ⟨items, us, closing, rest, rfl, hus, hc⟩ | ⟨q, hq⟩
        · simp only [List.length_append, List.length_cons] at hn
          have := Inside.prepend (.list ho hc hus .nil) (ih rest.length (by omega) p rest rfl)
          simpa using this
        · exact Or.inr ⟨q, .inside .nil ho hq⟩
      · exact Or.inl ⟨[], [], token, ts, rfl, .nil, hc⟩

/-- What tokens are, with what parsing gives for them. -/
inductive Outcome : List Token → Except ParseError Expression → Prop
  | empty : Outcome [] (.error .noTokens)
  | close {token : Token} {rest : List Token} : token.kind = .listClose →
      Outcome (token :: rest) (.error (.strayClose token.position))
  | pending {opening : Token} {rest : List Token} {q : Position} : opening.kind = .listOpen →
      Pending opening.position rest q → Outcome (opening :: rest) (.error (.unclosed q))
  | whole {e : Expression} {ts : List Token} : Spells [e] ts → Outcome ts (.ok e)
  | extra {e : Expression} {ts rest : List Token} {token : Token} : Spells [e] ts →
      Outcome (ts ++ token :: rest) (.error (.leftover token))

/-- Tokens that begin with an expression are that expression, or have more after it. -/
theorem exists_outcome_of_spells {e : Expression} {ts : List Token} (h : Spells [e] ts) (rest : List Token) :
    ∃ r, Outcome (ts ++ rest) r := by
  cases rest with
  | nil => exact ⟨.ok e, by rw [List.append_nil]; exact .whole h⟩
  | cons token rest => exact ⟨_, .extra h⟩

/-- **Every sequence of tokens has an outcome.** -/
theorem exists_outcome (ts : List Token) : ∃ r, Outcome ts r := by
  cases ts with
  | nil => exact ⟨_, .empty⟩
  | cons token ts =>
    rcases token_cases token with ⟨e, ha⟩ | ho | hc
    · exact exists_outcome_of_spells (.atom ha .nil) ts
    · rcases inside token.position ts with ⟨items, us, closing, rest, rfl, hus, hc⟩ | ⟨q, hq⟩
      · have h : Spells [.list items token.position] (token :: (us ++ [closing])) := .list ho hc hus .nil
        simpa using exists_outcome_of_spells h rest
      · exact ⟨_, .pending ho hq⟩
    · exact ⟨_, .close hc⟩

/-- Outside of all lists an expression is the answer if nothing follows it. -/
theorem parse_top {e : Expression} {ts : List Token} (h : Spells [e] ts) (rest : List Token) :
    parse (ts ++ rest) [] = place e rest (parse rest) [] := by
  cases h with
  | atom ha hnil =>
    cases hnil
    exact parse_atom ha
  | list ho hc hus hnil =>
    cases hnil
    rw [List.cons_append, parse_open ho, List.append_assoc, parse_spells hus, List.cons_append, parse_close hc]
    simp [Frame.close]

/-- **Parsing gives the outcome of the tokens.** -/
theorem ofTokens_eq_iff {ts : List Token} {r : Except ParseError Expression} : ofTokens ts = r ↔ Outcome ts r := by
  have run : ∀ {r}, Outcome ts r → ofTokens ts = r := by
    intro r h
    unfold ofTokens
    cases h with
    | empty => rfl
    | close hc => simp [parse, hc]
    | pending ho hq => rw [parse_open ho, parse_pending hq rfl]
    | whole hs => rw [← List.append_nil ts, parse_top hs]; rfl
    | extra hs => rw [parse_top hs]; rfl
  refine ⟨?_, run⟩
  rintro rfl
  obtain ⟨r, h⟩ := exists_outcome ts
  rw [run h]
  exact h

/-! ## The outcomes by the tokens alone -/

theorem ofTokens_eq_ok_iff {ts : List Token} {e : Expression} : ofTokens ts = .ok e ↔ Spells [e] ts := by
  rw [ofTokens_eq_iff]
  exact ⟨fun h => by cases h; assumption, .whole⟩

/-- Tokens spell at most one expression. -/
theorem Spells.unique {ts : List Token} {e e' : Expression} (h : Spells [e] ts) (h' : Spells [e'] ts) : e = e' :=
  Except.ok.inj ((ofTokens_eq_ok_iff.2 h).symm.trans (ofTokens_eq_ok_iff.2 h'))

theorem ofTokens_strayClose_iff {ts : List Token} {p : Position} : ofTokens ts = .error (.strayClose p) ↔
    ∃ token rest, ts = token :: rest ∧ token.kind = .listClose ∧ token.position = p := by
  rw [ofTokens_eq_iff]
  constructor
  · intro h
    cases h with
    | close hc => exact ⟨_, _, rfl, hc, rfl⟩
  · rintro ⟨token, rest, rfl, hc, rfl⟩
    exact .close hc

theorem ofTokens_leftover_iff {ts : List Token} {token : Token} : ofTokens ts = .error (.leftover token) ↔
    ∃ e us rest, Spells [e] us ∧ ts = us ++ token :: rest := by
  rw [ofTokens_eq_iff]
  constructor
  · intro h
    cases h with
    | extra hs => exact ⟨_, _, _, hs, rfl⟩
  · rintro ⟨e, us, rest, hs, rfl⟩
    exact .extra hs

/-- An unclosed list is an opening parenthesis after which the depth stays above zero. -/
theorem ofTokens_unclosed_iff {ts : List Token} : (∃ p, ofTokens ts = .error (.unclosed p)) ↔
    (∃ token rest, ts = token :: rest ∧ token.kind = .listOpen) ∧ ∀ q, q ≠ [] → q <+: ts → depth q ≠ 0 := by
  simp only [ofTokens_eq_iff]
  constructor
  · rintro ⟨p, h⟩
    cases h with
    | pending ho hq =>
      refine ⟨⟨_, _, rfl, ho⟩, ?_⟩
      intro q hne hprefix
      rcases List.prefix_cons_iff.1 hprefix with rfl | ⟨r, rfl, hr⟩
      · exact absurd rfl hne
      · have := hq.above r hr
        rw [depth_cons, level_open ho]
        omega
  · rintro ⟨⟨token, rest, rfl, ho⟩, hdepth⟩
    obtain ⟨r, h⟩ := exists_outcome (token :: rest)
    -- every other outcome has a beginning of depth zero or does not begin with an opening parenthesis
    generalize hts : token :: rest = ts at h hdepth ⊢
    cases h with
    | empty => cases hts
    | close hc =>
      obtain ⟨rfl, _⟩ := List.cons.inj hts
      rw [ho] at hc
      cases hc
    | pending ho' hq => exact ⟨_, .pending ho' hq⟩
    | whole hs => exact absurd hs.depth_eq (hdepth ts hs.ne_nil (List.prefix_refl ts))
    | extra hs => exact absurd hs.depth_eq (hdepth _ hs.ne_nil (List.prefix_append _ _))

theorem innermostOpen_of_unclosed {ts : List Token} {p : Position} (h : ofTokens ts = .error (.unclosed p)) :
    InnermostOpen ts p := by
  rw [ofTokens_eq_iff] at h
  cases h with
  | pending ho hq => exact hq.innermostOpen ho

/-- **Parsing accepts the grammar and tells every failure apart.** -/
theorem ofTokens_exact (ts : List Token) :
    (∀ e, ofTokens ts = .ok e ↔ Spells [e] ts) ∧
    (∀ e e', Spells [e] ts → Spells [e'] ts → e = e') ∧
    (ofTokens ts = .error .noTokens ↔ ts = []) ∧
    (∀ p, ofTokens ts = .error (.strayClose p) ↔
      ∃ token rest, ts = token :: rest ∧ token.kind = .listClose ∧ token.position = p) ∧
    ((∃ p, ofTokens ts = .error (.unclosed p)) ↔
      (∃ token rest, ts = token :: rest ∧ token.kind = .listOpen) ∧ ∀ q, q ≠ [] → q <+: ts → depth q ≠ 0) ∧
    (∀ p, ofTokens ts = .error (.unclosed p) → InnermostOpen ts p) ∧
    (∀ token, ofTokens ts = .error (.leftover token) ↔ ∃ e us rest, Spells [e] us ∧ ts = us ++ token :: rest) := by
  refine ⟨fun _ => ofTokens_eq_ok_iff, fun _ _ h h' => h.unique h', ?_, fun _ => ofTokens_strayClose_iff,
    ofTokens_unclosed_iff, fun _ => innermostOpen_of_unclosed, fun _ => ofTokens_leftover_iff⟩
  rw [ofTokens_eq_iff]
  exact ⟨fun h => by cases h; rfl, fun h => h ▸ .empty⟩

end SExprLang.Syntax
