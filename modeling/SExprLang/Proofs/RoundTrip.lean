import SExprLang.Compilation
import SExprLang.Proofs.Lexical.Exact
import SExprLang.Proofs.Syntax.Parsing
import SExprLang.Proofs.Syntax.Unplaced

/-!
# Rendering and compiling

A tree is well formed when its names and numerals are words that read as what they stand for. Compiling gives well-formed
trees only (`wellFormed_of_compile`), and a well-formed tree is compiled from its rendering, up to the positions of its
nodes (`compile_render`). The second rests on `ReadsAs`: a text that is read as certain expressions wherever it stands, so
that the texts of items can be put together to the text of a list.
-/

namespace SExprLang

open Lexical Syntax

namespace Expression

/-! ## Well-formed trees -/

mutual

/-- Names and numerals are words, and read as what they stand for. -/
def WellFormed : Expression → Prop
  | symbol name _ => IsWord name.toList ∧ Double.read? name = none
  | number value lexeme _ => IsWord lexeme.toList ∧ Double.read? lexeme = some value
  | string _ _ => True
  | list items _ => WellFormedItems items

/-- All of a sequence of trees are well formed. -/
def WellFormedItems : List Expression → Prop
  | [] => True
  | e :: rest => e.WellFormed ∧ WellFormedItems rest

end

end Expression

open Expression

/-! ## Compiled trees are well formed -/

/-- An atom that is a lexeme is well formed. -/
theorem wellFormed_of_atom? {token : Token} {e : Expression} (hl : Lexeme token.lexeme.toList token.kind)
    (h : token.atom? = some e) : e.WellFormed := by
  obtain ⟨kind, lexeme, position⟩ := token
  simp only at hl
  generalize ht : lexeme.toList = text at hl
  obtain rfl : lexeme = String.ofList text := by rw [← ht, String.ofList_toList]
  cases hl with
  | listOpen => cases h
  | listClose => cases h
  | number hw hread => cases h; exact ⟨by simpa using hw, hread⟩
  | symbol hw hread => cases h; exact ⟨by simpa using hw, hread⟩
  | string _ => cases h; trivial

theorem Syntax.Spells.wellFormedItems {es : List Expression} {ts : List Token} (h : Spells es ts)
    (hl : ∀ token ∈ ts, Lexeme token.lexeme.toList token.kind) : WellFormedItems es := by
  induction h with
  | nil => trivial
  | atom ha _ ih =>
    obtain ⟨hfirst, hrest⟩ := List.forall_mem_cons.1 hl
    exact ⟨wellFormed_of_atom? hfirst ha, ih hrest⟩
  | list _ _ _ _ ih₁ ih₂ =>
    obtain ⟨hinner, hrest⟩ := List.forall_mem_append.1 (List.forall_mem_cons.1 hl).2
    exact ⟨ih₁ hinner, ih₂ (List.forall_mem_cons.1 hrest).2⟩

theorem compile_eq_ok_iff {text : String} {e : Expression} :
    compile text = .ok e ↔ ∃ ts, Token.scan text = .ok ts ∧ Spells [e] ts := by
  unfold compile
  cases hscan : Token.scan text with
  | error error => simp [Except.mapError, bind, Except.bind]
  | ok ts =>
    have hmap : (ofTokens ts).mapError CompileError.parser = .ok e ↔ ofTokens ts = .ok e := by
      cases ofTokens ts <;> simp [Except.mapError]
    simp only [Except.ok.injEq, exists_eq_left', ← ofTokens_eq_ok_iff]
    exact hmap

theorem wellFormed_of_compile {text : String} {e : Expression} (h : compile text = .ok e) : e.WellFormed := by
  obtain ⟨ts, hscan, hs⟩ := compile_eq_ok_iff.1 h
  obtain ⟨gap, pieces, _, hlay⟩ := scanChars_eq_ok_iff.1 hscan
  exact (hs.wellFormedItems hlay.lexeme_of_mem).1

/-! ## Texts that are read as expressions -/

/-- Wherever the text stands between tokens, before something that ends words, it is read as the expressions, up to
positions. -/
def ReadsAs (text : List Char) (es : List Expression) : Prop :=
  ∀ (cursor : Cursor) (tokens : List Token) (k : List Char), EndsWord k → ∃ ts es',
    Scan.run ⟨cursor, .between, tokens⟩ (text ++ k) = Scan.run ⟨cursor.past text, .between, ts.reverse ++ tokens⟩ k ∧
      Spells es' ts ∧ unplacedItems es' = unplacedItems es

theorem ReadsAs.nil : ReadsAs [] [] := fun _ _ _ _ => ⟨[], [], rfl, .nil, rfl⟩

/-- A lexeme whose token is an atom is read as the atom. -/
theorem ReadsAs.lexeme {lexeme : List Char} {kind : TokenKind} {e : Expression} (hl : Lexeme lexeme kind)
    (he : ∀ p, ∃ e', (⟨kind, String.ofList lexeme, p⟩ : Token).atom? = some e' ∧ e'.unplaced = e.unplaced) :
    ReadsAs lexeme [e] := by
  intro cursor tokens k hk
  obtain ⟨e', ha, hsame⟩ := he cursor.position
  refine ⟨[⟨kind, String.ofList lexeme, cursor.position⟩], [e'], ?_, .atom ha .nil, ?_⟩
  · exact Scan.run_lexeme hl fun _ => hk
  · simp [unplacedItems, hsame]

/-- Texts with a space between them are read one after the other. -/
theorem ReadsAs.append {a b : List Char} {es fs : List Expression} (ha : ReadsAs a es) (hb : ReadsAs b fs) :
    ReadsAs (a ++ ' ' :: b) (es ++ fs) := by
  intro cursor tokens k hk
  have hblank : IsBlank ' ' := Or.inl (by decide)
  obtain ⟨ts, es', hrun, hs, hsame⟩ := ha cursor tokens (' ' :: b ++ k) (Or.inl hblank)
  obtain ⟨us, fs', hrun', hs', hsame'⟩ := hb ((cursor.past a).advance ' ') (ts.reverse ++ tokens) k hk
  refine ⟨ts ++ us, es' ++ fs', ?_, hs.append hs', ?_⟩
  · rw [List.append_assoc, hrun, List.cons_append, Scan.run_blank hblank, hrun']
    simp
  · rw [unplacedItems_append, unplacedItems_append, hsame, hsame']

/-- A text between parentheses is read as a list. -/
theorem ReadsAs.list {text : List Char} {items : List Expression} (h : ReadsAs text items) (p : Position) :
    ReadsAs ('(' :: text ++ [')']) [.list items p] := by
  intro cursor tokens k _
  let opening : Token := ⟨.listOpen, "(", cursor.position⟩
  let closing : Token := ⟨.listClose, ")", ((cursor.advance '(').past text).position⟩
  obtain ⟨ts, items', hrun, hs, hsame⟩ := h (cursor.advance '(') (opening :: tokens) (')' :: k) (Or.inr (Or.inr rfl))
  have hspells : Spells [.list items' opening.position] (opening :: (ts ++ [closing])) := .list rfl rfl hs .nil
  refine ⟨_, _, ?_, hspells, ?_⟩
  · have hopen : Scan.run ⟨cursor, .between, tokens⟩ ('(' :: (text ++ ')' :: k)) =
        Scan.run ⟨cursor.advance '(', .between, opening :: tokens⟩ (text ++ ')' :: k) := Scan.run_of_transition rfl
    have hclose : ∀ earlier, Scan.run ⟨(cursor.advance '(').past text, .between, earlier⟩ (')' :: k) =
        Scan.run ⟨((cursor.advance '(').past text).advance ')', .between, closing :: earlier⟩ k :=
      fun _ => Scan.run_of_transition rfl
    rw [List.append_assoc, List.cons_append, List.cons_append, List.nil_append, hopen, hrun, hclose]
    simp
  · simp [unplacedItems, unplaced, hsame]

/-- The text of a string between quotes is what is written for the string. -/
theorem body_escaped : ∀ value : List Char,
    Body (value.flatMap fun c => if c = '"' ∨ c = '\\' then ['\\', c] else [c]) value
  | [] => .nil
  | c :: value => by
    rw [List.flatMap_cons]
    split
    · exact .escape c (body_escaped value)
    · rename_i hc
      exact .plain (fun h => hc (Or.inl h)) (fun h => hc (Or.inr h)) (body_escaped value)

mutual

/-- A well-formed tree is read from its rendering, -/
theorem readsAs_render : ∀ e : Expression, e.WellFormed → ReadsAs e.render.toList [e]
  | .symbol name p, h => by
    obtain ⟨hw, hread⟩ := h
    rw [render]
    exact .lexeme (.symbol hw (by simpa using hread)) fun q => ⟨.symbol name q, by simp [Token.atom?], rfl⟩
  | .number value lexeme p, h => by
    obtain ⟨hw, hread⟩ := h
    rw [render]
    exact .lexeme (.number hw (by simpa using hread)) fun q => ⟨.number value lexeme q, by simp [Token.atom?], rfl⟩
  | .string value p, _ => by
    rw [render, renderString, String.toList_ofList]
    exact .lexeme (.string (body_escaped value.toList)) fun q => ⟨.string value q, by simp [Token.atom?], rfl⟩
  | .list items p, h => by
    have := (readsAs_renderItems items h).list p
    simpa [render] using this

/-- and well-formed trees from theirs. -/
theorem readsAs_renderItems : ∀ es : List Expression, WellFormedItems es → ReadsAs (renderItems es).toList es
  | [], _ => .nil
  | [e], h => readsAs_render e h.1
  | e :: f :: rest, h => by
    have := (readsAs_render e h.1).append (readsAs_renderItems (f :: rest) h.2)
    simpa [renderItems] using this

end

/-- **A well-formed tree is compiled from its rendering, up to positions.** -/
theorem compile_render {e : Expression} (h : e.WellFormed) :
    ∃ e', compile e.render = .ok e' ∧ e'.unplaced = e.unplaced := by
  obtain ⟨ts, es', hrun, hs, hsame⟩ := readsAs_render e h .start [] [] trivial
  have hscan : Token.scan e.render = .ok ts := by
    rw [List.append_nil] at hrun
    rw [Token.scan, Scan.scanChars_eq_run, Scan.start, hrun]
    simp [Scan.finish]
  cases es' with
  | nil => cases hsame
  | cons e' rest =>
    obtain ⟨hfirst, hrest⟩ := List.cons.inj hsame
    cases rest with
    | nil => exact ⟨e', compile_eq_ok_iff.2 ⟨ts, hscan, hs⟩, hfirst⟩
    | cons _ _ => cases hrest

/-- **Rendering and compiling are inverse.** -/
theorem compile_render_inverse :
    (∀ text e, compile text = .ok e → e.WellFormed) ∧
    (∀ e : Expression, e.WellFormed → ∃ e', compile e.render = .ok e' ∧ e'.unplaced = e.unplaced) ∧
    (∀ e : Expression, e.WellFormed → rendersStably e = true) ∧
    (∀ a b : Expression, a.WellFormed → b.WellFormed → a.render = b.render → a.unplaced = b.unplaced) := by
  refine ⟨fun _ _ => wellFormed_of_compile, fun _ => compile_render, ?_, ?_⟩
  · intro e h
    obtain ⟨e', hcompile, hsame⟩ := compile_render h
    have hrender : e'.render = e.render := by rw [← render_unplaced e', hsame, render_unplaced]
    simp [rendersStably, hcompile, hrender]
  · intro a b ha hb hrender
    obtain ⟨a', hca, hsame⟩ := compile_render ha
    obtain ⟨b', hcb, hsame'⟩ := compile_render hb
    rw [hrender, hcb] at hca
    rw [← hsame, ← hsame', Except.ok.inj hca]

/-- A quote and a backslash in a string come back, whatever the positions. -/
theorem compile_render_quote :
    (Expression.list [.symbol "a" ⟨7, 7⟩, .string "\"\\" ⟨5, 1⟩] ⟨3, 3⟩).WellFormed ∧
      ∃ e', compile "(a \"\\\"\\\\\")" = .ok e' ∧
        e'.unplaced = .list [.symbol "a" ⟨1, 1⟩, .string "\"\\" ⟨1, 1⟩] ⟨1, 1⟩ := by
  have hword : IsWord ['a'] := ⟨List.cons_ne_nil _ _, List.forall_mem_singleton.2 (by decide)⟩
  have h : (Expression.list [.symbol "a" ⟨7, 7⟩, .string "\"\\" ⟨5, 1⟩] ⟨3, 3⟩).WellFormed :=
    ⟨⟨hword, rfl⟩, trivial, trivial⟩
  have htext : (Expression.list [.symbol "a" ⟨7, 7⟩, .string "\"\\" ⟨5, 1⟩] ⟨3, 3⟩).render =
      "(a \"\\\"\\\\\")" := by decide
  refine ⟨h, ?_⟩
  rw [← htext]
  exact compile_render_inverse.2.1 _ h

end SExprLang
