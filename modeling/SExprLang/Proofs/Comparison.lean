import SExprLang.Proofs.Evaluation.Culprit
import SExprLang.Proofs.Value.Equality

/-!
# Reading a text twice

A text is always read in the same way, but what is read need not equal itself: nothing equals a value that is not a
number. Such a value can stand in a token, anywhere in a tree, and in the one error that quotes a token. `eqv_self_iff` says
for each of these when it equals itself, and `reread_differs_iff` puts them together: the outcome of compiling a text twice is
equal but for a tree with such a number in it and for such a number right after a complete expression.
-/

namespace SExprLang

/-! ## Tokens -/

/-- The token is a numeral for what is not a number. -/
def Token.IsNaN (token : Token) : Prop := ∃ value, token.kind = .number value ∧ value.isNaN = true

theorem TokenKind.eqv_self_iff (kind : TokenKind) :
    kind.eqv kind = true ↔ ¬∃ value, kind = .number value ∧ value.isNaN = true := by
  cases kind with
  | number value => simp [eqv, Double.numEq_self_iff]
  | _ => simp [eqv]

theorem Token.eqv_self_iff (token : Token) : token.eqv token = true ↔ ¬token.IsNaN := by
  simp only [eqv, BEq.rfl, Bool.and_true]
  exact token.kind.eqv_self_iff

theorem Token.eqvList_self_iff (tokens : List Token) :
    eqvList tokens tokens = true ↔ ¬∃ token ∈ tokens, token.IsNaN := by
  induction tokens with
  | nil => simp [eqvList]
  | cons token tokens ih => simp [eqvList, token.eqv_self_iff, ih]

/-! ## Trees -/

namespace Expression

/-- Somewhere in the tree stands a literal for what is not a number. -/
def HasNaN (e : Expression) : Prop :=
  ∃ value lexeme position, e.HasNode (.number value lexeme position) ∧ value.isNaN = true

/-- A list has what its items have. -/
theorem hasNaN_list_iff {items : List Expression} {p : Position} :
    (list items p).HasNaN ↔ ∃ item ∈ items, item.HasNaN := by
  simp only [HasNaN, hasNode_list_iff, reduceCtorEq, false_or]
  constructor
  · rintro ⟨value, lexeme, position, ⟨item, hmem, hnode⟩, hnan⟩
    exact ⟨item, hmem, value, lexeme, position, hnode, hnan⟩
  · rintro ⟨item, hmem, value, lexeme, position, hnode, hnan⟩
    exact ⟨value, lexeme, position, ⟨item, hmem, hnode⟩, hnan⟩

mutual

/-- A tree equals itself unless a literal in it does not. -/
theorem eqv_self_iff : ∀ e : Expression, e.eqv e = true ↔ ¬e.HasNaN
  | symbol name p => by simp [eqv, HasNaN]
  | number value lexeme p => by simp [eqv, HasNaN, Double.numEq_self_iff]
  | string value p => by simp [eqv, HasNaN]
  | list items p => by
    rw [hasNaN_list_iff, ← eqvItems_self_iff items]
    simp [eqv]

theorem eqvItems_self_iff : ∀ items : List Expression, eqvItems items items = true ↔ ¬∃ item ∈ items, item.HasNaN
  | [] => by simp [eqvItems]
  | item :: items => by simp [eqvItems, eqv_self_iff item, eqvItems_self_iff items]

end

end Expression

/-! ## Errors -/

/-- Of the parse errors only the one that names a token may differ from itself. -/
theorem ParseError.eqv_self_iff (error : ParseError) :
    error.eqv error = true ↔ ¬∃ token, error = .leftover token ∧ token.IsNaN := by
  cases error with
  | leftover token => simp [eqv, token.eqv_self_iff]
  | _ => simp [eqv]

theorem CompileError.eqv_self_iff (error : CompileError) :
    error.eqv error = true ↔ ¬∃ token, error = .parser (.leftover token) ∧ token.IsNaN := by
  cases error with
  | tokenizer error => simp [eqv]
  | parser error => simp [eqv, error.eqv_self_iff]

/-! ## Outcomes -/

/-- An outcome differs from itself if the value or the error that it is does so. -/
theorem outcomeEqv_self {ε α : Type} {errorEqv : ε → ε → Bool} {valueEqv : α → α → Bool} {badError : ε → Prop}
    {badValue : α → Prop} (herror : ∀ error, errorEqv error error = true ↔ ¬badError error)
    (hvalue : ∀ value, valueEqv value value = true ↔ ¬badValue value) (outcome : Except ε α) :
    outcomeEqv errorEqv valueEqv outcome outcome = false ↔
      (∃ value, outcome = .ok value ∧ badValue value) ∨ ∃ error, outcome = .error error ∧ badError error := by
  rw [Bool.eq_false_iff]
  cases outcome with
  | ok value => simp [outcomeEqv, hvalue]
  | error error => simp [outcomeEqv, herror]

/-- **What is read twice from one text is equal but for what is not a number.** Compiling a text gives twice the same
unless it gives a tree that has a literal for what is not a number, or the error that such a literal is the first token
after a complete expression. Scanning it gives twice the same unless such a literal is among the tokens. -/
theorem reread_differs_iff (text : String) :
    (compileEqv text text = false ↔
      (∃ e, compile text = .ok e ∧ e.HasNaN) ∨
        ∃ token, compile text = .error (.parser (.leftover token)) ∧ token.IsNaN) ∧
    (scanEqv text text = false ↔ ∃ tokens, Token.scan text = .ok tokens ∧ ∃ token ∈ tokens, token.IsNaN) := by
  refine ⟨?_, ?_⟩
  · have h := outcomeEqv_self CompileError.eqv_self_iff Expression.eqv_self_iff (compile text)
    constructor
    · intro hdiffers
      rcases h.1 hdiffers with htree | ⟨error, herror, token, rfl, hnan⟩
      · exact Or.inl htree
      · exact Or.inr ⟨token, herror, hnan⟩
    · rintro (htree | ⟨token, herror, hnan⟩)
      · exact h.2 (Or.inl htree)
      · exact h.2 (Or.inr ⟨_, herror, token, rfl, hnan⟩)
  · have hlexical : ∀ error : LexError, (error == error) = true ↔ ¬False := by simp
    have h := outcomeEqv_self hlexical Token.eqvList_self_iff (Token.scan text)
    simp only [and_false, exists_false, or_false] at h
    exact h

/-- The token after the expression is compared, and the expression before it is not. -/
example : compileEqv "x NaN" "x NaN" = false ∧ compileEqv "NaN x" "NaN x" = true := by decide +kernel

end SExprLang
