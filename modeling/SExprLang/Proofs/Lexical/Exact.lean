import SExprLang.Proofs.Lexical.Fault

/-!
# What a scan reports

A scan succeeds on the texts with a layout and on no others, with the tokens of the layout, and the layout is determined
by the text (`scan_exact`). The positions that it reports are those of counting (`scan_position_exact`): a token stands
after everything before its lexeme, and a misplaced character after everything that was read before it.
-/

namespace SExprLang

open Lexical

/-! ## Tokens and their pieces -/

namespace Lexical

/-- A word is a number iff it reads as one, and otherwise a symbol. -/
theorem Lexeme.kind_of_isWord {lexeme : List Char} {kind : TokenKind} (h : Lexeme lexeme kind) (hw : IsWord lexeme) :
    (∀ value, kind = .number value ↔ Double.read? (String.ofList lexeme) = some value) ∧
      (Double.read? (String.ofList lexeme) = none → kind = .symbol (String.ofList lexeme)) := by
  cases h with
  | listOpen => exact absurd hw (not_isWord_cons (by decide) _)
  | listClose => exact absurd hw (not_isWord_cons (by decide) _)
  | string _ => exact absurd hw (not_isWord_cons (by decide) _)
  | number _ hread => simp [hread]
  | symbol _ hread => simp [hread]

/-- What stands between the quotes of a string is its value with escapes. -/
theorem Lexeme.kind_of_quoted {body : List Char} {kind : TokenKind} (h : Lexeme ('"' :: body ++ ['"']) kind) :
    ∃ value, Body body value ∧ kind = .string (String.ofList value) := by
  have hword : ¬IsWord ('"' :: body ++ ['"']) := not_isWord_cons (by decide) _
  generalize hlex : '"' :: body ++ ['"'] = lexeme at h hword
  cases h with
  | listOpen => exact absurd (List.cons.inj hlex).1 (by decide)
  | listClose => exact absurd (List.cons.inj hlex).1 (by decide)
  | number hw _ => exact absurd hw hword
  | symbol hw _ => exact absurd hw hword
  | @string raw text hb =>
    have hraw : body = raw := List.append_cancel_right (List.cons.inj hlex).2
    exact ⟨text, hraw ▸ hb, rfl⟩

/-- Every token of a layout is a lexeme of its kind. -/
theorem Layout.lexeme_of_mem {before gap : List Char} {pieces : List Piece} {tokens : List Token}
    (h : Layout before gap pieces tokens) : ∀ token ∈ tokens, Lexeme token.lexeme.toList token.kind := by
  induction h with
  | last _ => exact List.forall_mem_nil _
  | token _ hl _ _ ih => exact List.forall_mem_cons.2 ⟨by simpa using hl, ih⟩

/-- The tokens of a layout are its pieces in order, each at the place after all that goes before. -/
theorem Layout.piece_of_token {before gap : List Char} {pieces : List Piece} {tokens : List Token}
    (h : Layout before gap pieces tokens) {i : Nat} {token : Token} (hi : tokens[i]? = some token) :
    ∃ piece, pieces[i]? = some piece ∧ token.lexeme = String.ofList piece.lexeme ∧
      token.position = Position.after (before ++ join gap (pieces.take i)) := by
  induction h generalizing i with
  | last _ => simp at hi
  | @token before gap piece pieces kind tokens _ _ _ _ ih =>
    cases i with
    | zero =>
      obtain rfl := Option.some.inj hi
      exact ⟨piece, rfl, rfl, by simp⟩
    | succ i =>
      obtain ⟨piece', hpiece, hlexeme, hposition⟩ := ih hi
      exact ⟨piece', hpiece, hlexeme, by rw [hposition]; simp⟩

end Lexical

/-! ## Misplaced characters -/

namespace Scan

theorem transition_error {cursor : Cursor} {mode : Mode} {tokens : List Token} {c : Char} {error : LexError}
    (h : transition cursor mode tokens c = .error error) : error = .misplacedChar c cursor.position := by
  unfold transition at h
  cases mode with
  | between => simp only at h; split at h <;> cases h; rfl
  | word first text => simp only at h; split at h <;> cases h <;> rfl
  | quoted first raw text => simp only at h; split at h <;> cases h
  | escape first raw text => cases h
  | comment => simp only at h; split at h <;> cases h

/-- A step fails only at its own character, which it reports at the cursor. -/
theorem step_error {s : Scan} {c : Char} {error : LexError} (h : s.step c = .error error) :
    error = .misplacedChar c s.cursor.position := by
  unfold step at h
  cases ht : transition s.cursor s.mode s.tokens c with
  | ok _ => rw [ht] at h; cases h
  | error _ => rw [ht] at h; cases h; exact transition_error ht

theorem cursor_of_step {s s' : Scan} {c : Char} (h : s.step c = .ok s') : s'.cursor = s.cursor.advance c := by
  unfold step at h
  cases ht : transition s.cursor s.mode s.tokens c with
  | ok _ => rw [ht] at h; cases h; rfl
  | error _ => rw [ht] at h; cases h

/-- A reading that fails has a first step that fails, with the cursor after all that was read before. -/
theorem steps_error {s : Scan} {text : List Char} {error : LexError} (h : s.steps text = .error error) :
    ∃ u c rest s', text = u ++ c :: rest ∧ s.steps u = .ok s' ∧ s'.cursor = s.cursor.past u ∧
      s'.step c = .error error := by
  induction text generalizing s with
  | nil => cases h
  | cons c text ih =>
    simp only [steps, List.foldlM_cons] at h
    cases hc : s.step c with
    | error e =>
      rw [hc] at h
      cases h
      exact ⟨[], c, text, s, rfl, rfl, rfl, hc⟩
    | ok s₁ =>
      rw [hc] at h
      obtain ⟨u, d, rest, s', rfl, hu, hcursor, hd⟩ := ih h
      refine ⟨c :: u, d, rest, s', rfl, ?_, ?_, hd⟩
      · simp only [steps, List.foldlM_cons, hc]
        exact hu
      · rw [hcursor, cursor_of_step hc, Cursor.past_cons]

/-- The end of a text is never a misplaced character. -/
theorem finish_ne_misplaced (s : Scan) (c : Char) (position : Position) :
    s.finish ≠ .error (.misplacedChar c position) := by
  unfold finish
  split <;> simp

end Scan

/-! ## The outcome of a scan -/

/-- **A scan succeeds exactly on the lexical grammar.** The tokens are those of the layout of the text, a text has only
one layout, and the tokens denote what their lexemes say. -/
theorem scan_exact (text : String) :
    (∀ tokens, Token.scan text = .ok tokens ↔
      ∃ gap pieces, text.toList = join gap pieces ∧ Layout [] gap pieces tokens) ∧
    (∀ gap gap' pieces pieces' tokens tokens', text.toList = join gap pieces → text.toList = join gap' pieces' →
      Layout [] gap pieces tokens → Layout [] gap' pieces' tokens' → gap = gap' ∧ pieces = pieces') ∧
    (∀ tokens, Token.scan text = .ok tokens → ∀ token ∈ tokens,
      (IsWord token.lexeme.toList →
        (∀ value, token.kind = .number value ↔ Double.read? token.lexeme = some value) ∧
          (Double.read? token.lexeme = none → token.kind = .symbol token.lexeme)) ∧
      (∀ body, token.lexeme.toList = '"' :: body ++ ['"'] →
        ∃ value, Body body value ∧ token.kind = .string (String.ofList value))) := by
  refine ⟨fun tokens => scanChars_eq_ok_iff, ?_, ?_⟩
  · intro gap gap' pieces pieces' tokens tokens' heq heq' h h'
    have hscan : Token.scanChars text.toList = .ok tokens := scanChars_eq_ok_iff.2 ⟨gap, pieces, heq, h⟩
    have hscan' : Token.scanChars text.toList = .ok tokens' := scanChars_eq_ok_iff.2 ⟨gap', pieces', heq', h'⟩
    obtain rfl := Except.ok.inj (hscan.symm.trans hscan')
    exact h.unique h' (heq.symm.trans heq')
  · intro tokens hscan token hmem
    obtain ⟨gap, pieces, _, h⟩ := scanChars_eq_ok_iff.1 hscan
    have hl := h.lexeme_of_mem token hmem
    refine ⟨fun hw => ?_, fun body hbody => ?_⟩
    · simpa using hl.kind_of_isWord hw
    · rw [hbody] at hl
      exact hl.kind_of_quoted

/-- **Reported positions are those of counting.** -/
theorem scan_position_exact (text : String) :
    (∀ tokens, Token.scan text = .ok tokens → ∃ gap pieces, text.toList = join gap pieces ∧
      Layout [] gap pieces tokens ∧ ∀ i token, tokens[i]? = some token →
        ∃ piece, pieces[i]? = some piece ∧ token.lexeme = String.ofList piece.lexeme ∧
          token.position = Position.after (join gap (pieces.take i))) ∧
    (∀ c position, Token.scan text = .error (.misplacedChar c position) →
      ∃ u rest s, text.toList = u ++ c :: rest ∧ Scan.start.steps u = .ok s ∧
        s.step c = .error (.misplacedChar c position) ∧ position = Position.after u) := by
  refine ⟨?_, ?_⟩
  · intro tokens hscan
    obtain ⟨gap, pieces, heq, h⟩ := scanChars_eq_ok_iff.1 hscan
    exact ⟨gap, pieces, heq, h, fun i token hi => h.piece_of_token hi⟩
  · intro c position hscan
    have hsteps : Scan.start.steps text.toList = .error (.misplacedChar c position) := by
      simp only [Token.scan, Token.scanChars, bind, Except.bind] at hscan
      cases hs : Scan.start.steps text.toList with
      | error e => rw [hs] at hscan; cases hscan; rfl
      | ok s => rw [hs] at hscan; exact absurd hscan (s.finish_ne_misplaced c position)
    obtain ⟨u, d, rest, s, heq, hu, hcursor, hd⟩ := Scan.steps_error hsteps
    have hfail := Scan.step_error hd
    obtain ⟨rfl, hposition⟩ := LexError.misplacedChar.inj hfail
    refine ⟨u, rest, s, heq, hu, hd, ?_⟩
    rw [hposition, hcursor]
    exact congrArg Cursor.position (Cursor.start_past u)

end SExprLang
