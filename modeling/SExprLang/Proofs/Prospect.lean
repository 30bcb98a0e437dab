import SExprLang.Proofs.Lexical.Lines
import SExprLang.Proofs.RoundTrip

/-!
# What a compile error says of longer texts

A text that does not compile may be the beginning of one that does, and the error tells. Where a string is open, one or two
quotes close it (`quotes_of_unfinishedString`). A misplaced character, a stray parenthesis and tokens after an expression
stay whatever follows (`compile_append_of_isFinal`). Open lists are closed by as many parentheses as are missing
(`compile_closers`), and a text without tokens does not get in the way of the text after it (`compile_after_blank`).
-/

namespace SExprLang

open Lexical Syntax Expression

/-! ## The stages of compilation -/

theorem compile_eq_tokenizer_iff {text : String} {error : LexError} :
    compile text = .error (.tokenizer error) ↔ Token.scan text = .error error := by
  unfold compile
  cases Token.scan text with
  | error error' => simp [Except.mapError, bind, Except.bind]
  | ok ts =>
    simp only [Except.mapError, bind, Except.bind]
    cases ofTokens ts <;> simp

theorem compile_eq_parser_iff {text : String} {error : ParseError} :
    compile text = .error (.parser error) ↔ ∃ ts, Token.scan text = .ok ts ∧ ofTokens ts = .error error := by
  unfold compile
  cases Token.scan text with
  | error error' => simp [Except.mapError, bind, Except.bind]
  | ok ts =>
    simp only [Except.mapError, bind, Except.bind, Except.ok.injEq, exists_eq_left']
    cases ofTokens ts <;> simp

/-- A text does not compile if its tokens, should it have any, are no expression. -/
theorem exists_compile_error {text : String} (h : ∀ ts, Token.scan text = .ok ts → ∃ error, ofTokens ts = .error error) :
    ∃ error, compile text = .error error := by
  cases hscan : Token.scan text with
  | error error => exact ⟨_, compile_eq_tokenizer_iff.2 hscan⟩
  | ok ts =>
    obtain ⟨error, herror⟩ := h ts hscan
    exact ⟨_, compile_eq_parser_iff.2 ⟨ts, hscan, herror⟩⟩

/-! ## Open strings -/

/-- Exactly one of one quote and two quotes ends a string that is open: two if the first is escaped. -/
theorem quotes_of_unfinishedString {text : String} (h : Token.scan text = .error .unfinishedString) :
    Xor (∃ ts, Token.scan (text ++ "\"") = .ok ts) (∃ ts, Token.scan (text ++ "\"\"") = .ok ts) := by
  rcases Scan.run_eq_error h with ⟨_, _, _, hmisplaced⟩ | ⟨s, hsteps, hfinish⟩
  · cases hmisplaced
  have hone : Token.scan (text ++ "\"") = s.run ['"'] := scan_append hsteps _
  have htwo : Token.scan (text ++ "\"\"") = s.run ['"', '"'] := scan_append hsteps _
  rw [hone, htwo]
  obtain ⟨cursor, mode, tokens⟩ := s
  cases mode with
  | quoted first raw value => exact Or.inl ⟨⟨_, rfl⟩, fun ⟨_, hok⟩ => nomatch hok⟩
  | escape first raw value => exact Or.inr ⟨⟨_, rfl⟩, fun ⟨_, hok⟩ => nomatch hok⟩
  | _ => cases hfinish

/-! ## Errors that stay -/

/-- The errors that no more text can help: what is wrong has been read. -/
def CompileError.IsFinal : CompileError → Prop
  | tokenizer (.misplacedChar ..) | parser (.strayClose ..) | parser (.leftover ..) => True
  | tokenizer .unfinishedString | parser .noTokens | parser (.unclosed ..) => False

/-- A misplaced character stays misplaced. -/
theorem scan_append_of_misplacedChar {text : String} {c : Char} {position : Position}
    (h : Token.scan text = .error (.misplacedChar c position)) (more : String) :
    Token.scan (text ++ more) = .error (.misplacedChar c position) := by
  rcases Scan.run_eq_error h with ⟨hsteps, _⟩ | ⟨s, _, hfinish⟩
  · rw [Token.scan, String.toList_append, Scan.scanChars_eq_run, Scan.run_append, hsteps]
    rfl
  · exact absurd hfinish (s.finish_ne_misplaced c position)

theorem compile_append_of_isFinal {text : String} {error : CompileError} (h : compile text = .error error)
    (hfinal : error.IsFinal) (more : String) : ∃ error', compile (text ++ more) = .error error' := by
  match error, hfinal with
  | .tokenizer (.misplacedChar c position), _ =>
    have hscan := scan_append_of_misplacedChar (compile_eq_tokenizer_iff.1 h) more
    exact ⟨_, compile_eq_tokenizer_iff.2 hscan⟩
  | .parser (.strayClose position), _ =>
    obtain ⟨ts, hscan, herror⟩ := compile_eq_parser_iff.1 h
    obtain ⟨token, rest, rfl, hclose, _⟩ := ofTokens_strayClose_iff.1 herror
    have hfirst : Token.scanChars text.toList = .ok ([] ++ token :: rest) := hscan
    refine exists_compile_error fun us hus => ?_
    rw [Token.scan, String.toList_append] at hus
    obtain ⟨token', rest', rfl, hsame⟩ := Scan.exists_token_of_longer hfirst hus
    rw [hsame hclose]
    exact ⟨_, ofTokens_strayClose_iff.2 ⟨token, rest', rfl, hclose, rfl⟩⟩
  | .parser (.leftover token), _ =>
    obtain ⟨ts, hscan, herror⟩ := compile_eq_parser_iff.1 h
    obtain ⟨e, vs, rest, hvs, rfl⟩ := ofTokens_leftover_iff.1 herror
    refine exists_compile_error fun us hus => ?_
    rw [Token.scan, String.toList_append] at hus
    obtain ⟨token', rest', rfl, _⟩ := Scan.exists_token_of_longer hscan hus
    exact ⟨_, ofTokens_leftover_iff.2 ⟨e, vs, rest', hvs, rfl⟩⟩

/-! ## Open lists -/

namespace Syntax

/-- The depth counts opening against closing parentheses. -/
theorem depth_eq_sub_countP (ts : List Token) :
    depth ts = (ts.countP (·.kind = .listOpen) : Int) - ts.countP (·.kind = .listClose) := by
  induction ts with
  | nil => rfl
  | cons token ts ih =>
    rw [depth_cons, ih, List.countP_cons, List.countP_cons]
    unfold level
    cases token.kind <;> simp <;> omega

/-- Pending tokens with as many closing parentheses after them as lists are open end with the outermost list. -/
theorem Pending.close {p q : Position} {ts closers : List Token} (h : Pending p ts q)
    (hclose : ∀ token ∈ closers, token.kind = .listClose) (hlength : (closers.length : Int) = depth ts + 1) :
    ∃ es us closing, ts ++ closers = us ++ [closing] ∧ Spells es us ∧ closing.kind = .listClose := by
  induction h generalizing closers with
  | @here p es us hs =>
    rw [hs.depth_eq] at hlength
    obtain ⟨closing, rfl⟩ := List.length_eq_one_iff.1 (by omega : closers.length = 1)
    exact ⟨es, us, closing, rfl, hs, hclose closing List.mem_cons_self⟩
  | @inside p q es opening us vs hs ho hrest ih =>
    have hdepth := hrest.above vs (List.prefix_refl vs)
    rw [depth_append, depth_cons, level_open ho, hs.depth_eq] at hlength
    rcases closers.eq_nil_or_concat' with rfl | ⟨inner, closing, rfl⟩
    · simp at hlength
      omega
    · -- the last parenthesis is for the list around, those before it for what is pending inside
      obtain ⟨hinner, hlast⟩ := List.forall_mem_append.1 hclose
      simp only [List.length_append, List.length_singleton] at hlength
      obtain ⟨items, ws, closing', heq, hws, hclosing'⟩ := ih hinner (by omega)
      refine ⟨_, us ++ opening :: (ws ++ [closing']), closing, ?_, hs.append (.list ho hclosing' hws .nil),
        hlast closing List.mem_cons_self⟩
      rw [← heq]
      simp

end Syntax

/-- Closing parentheses are read as such. -/
theorem run_closers (k : Nat) (cursor : Cursor) (tokens : List Token) :
    ∃ closers : List Token, closers.length = k ∧ (∀ token ∈ closers, token.kind = .listClose) ∧
      Scan.run ⟨cursor, .between, tokens⟩ (List.replicate k ')') = .ok (tokens.reverse ++ closers) := by
  induction k generalizing cursor tokens with
  | zero => exact ⟨[], rfl, List.forall_mem_nil _, by simp [Scan.finish]⟩
  | succ k ih =>
    obtain ⟨closers, hlength, hclose, hrun⟩ := ih (cursor.advance ')') (Scan.delimiter cursor .listClose ')' :: tokens)
    refine ⟨Scan.delimiter cursor .listClose ')' :: closers, congrArg (· + 1) hlength,
      List.forall_mem_cons.2 ⟨rfl, hclose⟩, ?_⟩
    have hstep : Scan.run ⟨cursor, .between, tokens⟩ (')' :: List.replicate k ')') =
        Scan.run ⟨cursor.advance ')', .between, Scan.delimiter cursor .listClose ')' :: tokens⟩ (List.replicate k ')') :=
      Scan.run_of_transition rfl
    rw [List.replicate_succ, hstep, hrun]
    simp

/-- As many closing parentheses as are missing make an expression of open lists. -/
theorem compile_closers {text : String} {p : Position} (h : compile text = .error (.parser (.unclosed p))) :
    ∃ ts, Token.scan text = .ok ts ∧
      let k := ts.countP (·.kind = .listOpen) - ts.countP (·.kind = .listClose)
      1 ≤ k ∧ ∃ e, compile (text ++ "\n" ++ String.ofList (List.replicate k ')')) = .ok e := by
  obtain ⟨ts, hscan, herror⟩ := compile_eq_parser_iff.1 h
  refine ⟨ts, hscan, ?_⟩
  intro k
  rw [ofTokens_eq_iff] at herror
  cases herror with
  | @pending opening rest q ho hq =>
    have hcounts := depth_eq_sub_countP (opening :: rest)
    have hrest := hq.above rest (List.prefix_refl rest)
    rw [depth_cons, level_open ho] at hcounts
    have hk : (k : Int) = depth rest + 1 := by omega
    refine ⟨by omega, ?_⟩
    have hnext := scan_nextLine hscan (String.ofList (List.replicate k ')'))
    obtain ⟨closers, hlength, hclose, hrun⟩ :=
      run_closers k (Cursor.start.past (text.toList ++ ['\n'])) (opening :: rest).reverse
    rw [String.toList_ofList, hrun, List.reverse_reverse] at hnext
    obtain ⟨es, us, closing, heq, hus, hclosing⟩ := hq.close hclose (by omega)
    have hspells : Spells [.list es opening.position] (opening :: (us ++ [closing])) := .list ho hclosing hus .nil
    rw [← heq] at hspells
    exact ⟨_, compile_eq_ok_iff.2 ⟨_, hnext, hspells⟩⟩

/-! ## Texts without tokens -/

/-- A token that is an atom is the same atom at another place. -/
theorem Token.Alike.atom? {place : Position → Position → Prop} {t t' : Token} (h : t.Alike place t') {e : Expression}
    (he : t'.atom? = some e) : ∃ e', t.atom? = some e' ∧ e'.unplaced = e.unplaced := by
  unfold Token.atom? at he ⊢
  rw [h.kind, h.lexeme]
  split at he <;> cases he
  · exact ⟨_, rfl, rfl⟩
  · exact ⟨_, rfl, rfl⟩
  · exact ⟨_, rfl, rfl⟩

/-- The same tokens at other places spell the same expressions. -/
theorem Syntax.Spells.displaced {place : Position → Position → Prop} {es : List Expression} {ts us : List Token}
    (h : Spells es ts) (halike : List.Forall₂ (Token.Alike place) us ts) :
    ∃ es', Spells es' us ∧ unplacedItems es' = unplacedItems es := by
  induction h generalizing us with
  | nil =>
    cases halike
    exact ⟨[], .nil, rfl⟩
  | atom ha _ ih =>
    cases halike with
    | cons hfirst hrest =>
      obtain ⟨e', he', hsame⟩ := hfirst.atom? ha
      obtain ⟨es', hes', hsames⟩ := ih hrest
      exact ⟨e' :: es', .atom he' hes', congrArg₂ List.cons hsame hsames⟩
  | @list opening closing items es vs ts ho hc _ _ ih₁ ih₂ =>
    cases halike with
    | @cons opening' _ rest _ hopening hrest =>
      have htail := List.forall₂_drop_append rest vs (closing :: ts) hrest
      obtain ⟨items', hitems', hsame⟩ := ih₁ (List.forall₂_take_append rest vs (closing :: ts) hrest)
      obtain ⟨closing', ts', hclosing, hts', heq⟩ := List.forall₂_cons_right_iff.1 htail
      obtain ⟨es', hes', hsames⟩ := ih₂ hts'
      have hspells : Spells (.list items' opening'.position :: es') (opening' :: (rest.take vs.length ++ closing' :: ts')) :=
        .list (hopening.kind.trans ho) (hclosing.kind.trans hc) hitems' hes'
      rw [← heq, List.take_append_drop] at hspells
      refine ⟨_, hspells, ?_⟩
      simp only [unplacedItems, unplaced, hsame, hsames]

/-- A text without tokens on the lines before changes nothing but positions. -/
theorem compile_after_blank {text : String} (h : compile text = .error (.parser .noTokens)) {next : String}
    {e : Expression} (hnext : compile next = .ok e) :
    ∃ e', compile (text ++ "\n" ++ next) = .ok e' ∧ e'.unplaced = e.unplaced := by
  obtain ⟨ts, hscan, herror⟩ := compile_eq_parser_iff.1 h
  rw [ofTokens_eq_iff] at herror
  cases herror with
  | empty =>
    obtain ⟨us, hus, hspells⟩ := compile_eq_ok_iff.1 hnext
    have hread := scan_nextLine hscan next
    rw [List.reverse_nil, run_below, ← Token.scan, hus] at hread
    have hdown : List.Forall₂ (Token.Alike fun _ _ => True)
        (us.map (Token.down (Position.lineBreaks (text.toList ++ ['\n'])))) us :=
      List.forall₂_map_left_iff.2 (List.forall₂_same.2 fun _ _ => ⟨rfl, rfl, trivial⟩)
    obtain ⟨es', hes', hsame⟩ := hspells.displaced hdown
    obtain ⟨e', _, he', hnil, rfl⟩ := List.forall₂_cons_right_iff.1 (unplacedItems_eq hsame)
    cases hnil
    exact ⟨e', compile_eq_ok_iff.2 ⟨_, hread, hes'⟩, he'⟩

/-- **The compile error tells whether more text can help.** -/
theorem compile_error_prospect (text : String) :
    (compile text = .error (.tokenizer .unfinishedString) →
      Xor (∃ ts, Token.scan (text ++ "\"") = .ok ts) (∃ ts, Token.scan (text ++ "\"\"") = .ok ts)) ∧
    (∀ error : CompileError, compile text = .error error → error.IsFinal →
      ∀ more, ∃ error', compile (text ++ more) = .error error') ∧
    (∀ p, compile text = .error (.parser (.unclosed p)) → ∃ ts, Token.scan text = .ok ts ∧
      let k := ts.countP (·.kind = .listOpen) - ts.countP (·.kind = .listClose)
      1 ≤ k ∧ ∃ e, compile (text ++ "\n" ++ String.ofList (List.replicate k ')')) = .ok e) ∧
    (compile text = .error (.parser .noTokens) → ∀ next e, compile next = .ok e →
      ∃ e', compile (text ++ "\n" ++ next) = .ok e' ∧ e'.unplaced = e.unplaced) := by
  refine ⟨?_, ?_, ?_, ?_⟩
  · intro h
    exact quotes_of_unfinishedString (compile_eq_tokenizer_iff.1 h)
  · intro error h hfinal more
    exact compile_append_of_isFinal h hfinal more
  · intro p h
    exact compile_closers h
  · intro h next e hnext
    exact compile_after_blank h hnext

-- the comment would swallow the parentheses if they stood on its line
example : compile "(a (b # c" = .error (.parser (.unclosed ⟨1, 4⟩)) ∧
    (compile "(a (b # c\n))").isOk = true ∧ (compile "(a (b # c))").isOk = false := by decide

end SExprLang
