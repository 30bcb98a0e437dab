import SExprLang.Proofs.Lexical.Grammar

/-!
# Reading gaps and lexemes

`Scan.run` reads what is left of a text from any stage of a scan. Between tokens, a gap moves the cursor alone
(`run_gap`), and a lexeme adds its token, wherever the text goes on to and whatever becomes of it (`run_lexeme`). So a
text with a layout has the tokens of the layout (`Layout.run_eq`).
-/

namespace SExprLang

open Lexical

namespace Scan

/-- The tokens after all of a text is read. -/
def run (s : Scan) (text : List Char) : Except LexError (List Token) := do (← s.steps text).finish

theorem scanChars_eq_run (text : List Char) : Token.scanChars text = start.run text := rfl

variable {cursor : Cursor} {mode : Mode} {tokens : List Token} {k : List Char}

@[simp]
theorem run_nil (s : Scan) : s.run [] = s.finish := rfl

theorem run_cons (s : Scan) (c : Char) (text : List Char) : s.run (c :: text) = (s.step c).bind (run · text) := by
  simp only [run, steps, List.foldlM_cons, bind, Except.bind]
  cases s.step c <;> rfl

/-- One character that leads on. -/
theorem run_of_transition {c : Char} {mode' : Mode} {tokens' : List Token}
    (h : transition cursor mode tokens c = .ok (mode', tokens')) :
    run ⟨cursor, mode, tokens⟩ (c :: k) = run ⟨cursor.advance c, mode', tokens'⟩ k := by
  rw [run_cons, step, h]
  rfl

/-- One character that cannot stand where it does. -/
theorem run_of_transition_error {c : Char} {error : LexError} (h : transition cursor mode tokens c = .error error) :
    run ⟨cursor, mode, tokens⟩ (c :: k) = .error error := by
  rw [run_cons, step, h]
  rfl

/-! ## Gaps -/

theorem run_blank {c : Char} (h : IsBlank c) :
    run ⟨cursor, .between, tokens⟩ (c :: k) = run ⟨cursor.advance c, .between, tokens⟩ k := by
  apply run_of_transition
  rcases h with h | h <;> simp [transition, h]

/-- A comment goes on over every character of its line. -/
theorem run_comment {body : List Char} (h : OnOneLine body) :
    run ⟨cursor, .comment, tokens⟩ (body ++ k) = run ⟨cursor.past body, .comment, tokens⟩ k := by
  induction body generalizing cursor with
  | nil => rfl
  | cons c body ih =>
    have hc : transition cursor .comment tokens c = .ok (.comment, tokens) := by
      have hbreak : LexicalClass.of c ≠ .lineBreak := by
        rw [Ne, LexicalClass.of_eq_lineBreak_iff, h c List.mem_cons_self]
        exact Bool.false_ne_true
      unfold transition
      cases hclass : LexicalClass.of c <;> simp_all
    rw [List.cons_append, run_of_transition hc, ih fun d hd => h d (List.mem_cons_of_mem _ hd)]
    rfl

theorem run_hash : run ⟨cursor, .between, tokens⟩ ('#' :: k) = run ⟨cursor.advance '#', .comment, tokens⟩ k :=
  run_of_transition rfl

/-- A gap moves the cursor and nothing else. -/
theorem run_gap {gap : List Char} (h : Gap gap) :
    run ⟨cursor, .between, tokens⟩ (gap ++ k) = run ⟨cursor.past gap, .between, tokens⟩ k := by
  induction h generalizing cursor with
  | nil => rfl
  | blank hc _ ih => rw [List.cons_append, run_blank hc, ih]; rfl
  | @comment body gap lineEnd hbody hend _ ih =>
    have hout : ∀ cursor, transition cursor .comment tokens lineEnd = .ok (.between, tokens) := by
      intro cursor
      simp [transition, (LexicalClass.of_eq_lineBreak_iff lineEnd).2 hend]
    rw [List.cons_append, List.cons_append, run_hash, List.append_assoc, run_comment hbody, List.cons_append,
      run_of_transition (hout _), ih]
    simp

/-- At the end of the text nothing follows the last gap. -/
theorem run_lastGap {gap : List Char} (h : LastGap gap) : run ⟨cursor, .between, tokens⟩ gap = .ok tokens.reverse := by
  cases h with
  | ended hg =>
    rw [← List.append_nil gap, run_gap hg]
    rfl
  | @comment gap body hg hbody =>
    rw [run_gap hg, run_hash, ← List.append_nil body, run_comment hbody]
    rfl

/-! ## Words -/

variable {first : Cursor} {collected : List Char}

/-- The characters of a word are collected. -/
theorem run_word {w : List Char} (h : ∀ c ∈ w, LexicalClass.of c = .other) :
    run ⟨cursor, .word first collected, tokens⟩ (w ++ k) =
      run ⟨cursor.past w, .word first (w.reverse ++ collected), tokens⟩ k := by
  induction w generalizing cursor collected with
  | nil => rfl
  | cons c w ih =>
    have hc : transition cursor (.word first collected) tokens c = .ok (.word first (c :: collected), tokens) := by
      simp [transition, h c List.mem_cons_self]
    rw [List.cons_append, run_of_transition hc, ih fun d hd => h d (List.mem_cons_of_mem _ hd)]
    simp

/-- The text after a word is read as if the word had ended before. -/
theorem run_endsWord (h : EndsWord k) :
    run ⟨cursor, .word first collected, tokens⟩ k =
      run ⟨cursor, .between, wordToken first collected :: tokens⟩ k := by
  cases k with
  | nil => rfl
  | cons c k =>
    rw [run_cons, run_cons]
    rcases h with (h | h) | rfl | rfl
    · simp [step, transition, h]
    · simp [step, transition, h]
    · rfl
    · rfl

/-- A word between tokens is collected from its first character on. -/
theorem run_isWord {w : List Char} (h : IsWord w) :
    run ⟨cursor, .between, tokens⟩ (w ++ k) = run ⟨cursor.past w, .word cursor w.reverse, tokens⟩ k := by
  obtain ⟨c, w, rfl⟩ := List.exists_cons_of_ne_nil h.1
  have hc : transition cursor .between tokens c = .ok (.word cursor [c], tokens) := by
    simp [transition, h.2 c List.mem_cons_self]
  rw [List.cons_append, run_of_transition hc, run_word fun d hd => h.2 d (List.mem_cons_of_mem _ hd)]
  simp

/-! ## Strings -/

variable {raw text : List Char}

/-- Inside a string every character but the quote and the backslash stands for itself. -/
theorem transition_quoted {c : Char} (hq : c ≠ '"') (hb : c ≠ '\\') :
    transition cursor (.quoted first raw text) tokens c = .ok (.quoted first (c :: raw) (c :: text), tokens) := by
  have hq' : LexicalClass.of c ≠ .quote := fun h => hq ((LexicalClass.of_eq_iff rfl c).1 h)
  have hb' : LexicalClass.of c ≠ .backslash := fun h => hb ((LexicalClass.of_eq_iff rfl c).1 h)
  unfold transition
  cases hclass : LexicalClass.of c <;> simp_all

/-- The inside of a string is collected, as it is written and as it is meant. -/
theorem run_body {body value : List Char} (h : Body body value) :
    run ⟨cursor, .quoted first raw text, tokens⟩ (body ++ k) =
      run ⟨cursor.past body, .quoted first (body.reverse ++ raw) (value.reverse ++ text), tokens⟩ k := by
  induction h generalizing cursor raw text with
  | nil => rfl
  | escape c _ ih =>
    have hescape : transition cursor (.quoted first raw text) tokens '\\' =
        .ok (.escape first ('\\' :: raw) text, tokens) := rfl
    have hc : ∀ cursor, transition cursor (.escape first ('\\' :: raw) text) tokens c =
        .ok (.quoted first (c :: '\\' :: raw) (c :: text), tokens) := fun _ => rfl
    rw [List.cons_append, run_of_transition hescape, List.cons_append, run_of_transition (hc _), ih]
    simp
  | plain hq hb _ ih =>
    rw [List.cons_append, run_of_transition (transition_quoted hq hb), ih]
    simp

theorem run_openQuote : run ⟨cursor, .between, tokens⟩ ('"' :: k) =
    run ⟨cursor.advance '"', .quoted cursor ['"'] [], tokens⟩ k := run_of_transition rfl

/-- A string between tokens becomes a token at its opening quote. -/
theorem run_string {body value : List Char} (h : Body body value) :
    run ⟨cursor, .between, tokens⟩ ('"' :: body ++ ['"'] ++ k) =
      run ⟨cursor.past ('"' :: body ++ ['"']), .between,
        stringToken cursor ('"' :: body ++ ['"']).reverse value.reverse :: tokens⟩ k := by
  rw [List.append_assoc, List.cons_append, run_openQuote, run_body h, List.cons_append, run_of_transition rfl]
  simp

/-! ## Lexemes and layouts -/

/-- **A lexeme becomes its token.** After a word the text has to go on with something that ends words; nothing else is
asked of it. -/
theorem run_lexeme {lexeme : List Char} {kind : TokenKind} (h : Lexeme lexeme kind) (hk : IsWord lexeme → EndsWord k) :
    run ⟨cursor, .between, tokens⟩ (lexeme ++ k) =
      run ⟨cursor.past lexeme, .between, ⟨kind, String.ofList lexeme, cursor.position⟩ :: tokens⟩ k := by
  cases h with
  | listOpen => exact run_of_transition rfl
  | listClose => exact run_of_transition rfl
  | number hw hread => rw [run_isWord hw, run_endsWord (hk hw), wordToken]; simp [TokenKind.ofWord, hread]
  | symbol hw hread => rw [run_isWord hw, run_endsWord (hk hw), wordToken]; simp [TokenKind.ofWord, hread]
  | string hbody => rw [run_string hbody, stringToken]; simp

end Scan

/-- **A text with a layout has the tokens of the layout.** -/
theorem Lexical.Layout.run_eq {before gap : List Char} {pieces : List Piece} {tokens : List Token}
    (h : Layout before gap pieces tokens) (earlier : List Token) :
    Scan.run ⟨Cursor.start.past before, .between, earlier⟩ (join gap pieces) = .ok (earlier.reverse ++ tokens) := by
  induction h generalizing earlier with
  | last hg => rw [join_nil, Scan.run_lastGap hg, List.append_nil]
  | @token before gap piece pieces kind tokens hg hl hapart hrest ih =>
    have hends : IsWord piece.lexeme → EndsWord (join piece.gap pieces) := fun hw => hrest.apart_iff.1 (hapart hw)
    have hplace : ((Cursor.start.past before).past gap).position = Position.after (before ++ gap) := by
      rw [← Cursor.past_append, Cursor.start_past]
    rw [join_cons, Scan.run_gap hg, Scan.run_lexeme hl hends, hplace, ← Cursor.past_append, ← Cursor.past_append,
      ← List.append_assoc, ih]
    simp

end SExprLang
