import SExprLang.Proofs.Place
import SExprLang.Token.Scan

/-!
# The lexical grammar

A text is a sequence of lexemes with gaps around them. A gap is white space, line breaks and comments (`Gap`); a comment
ends with its line, and the last one of a text may end with the text instead (`LastGap`). A lexeme is a parenthesis, a
word or a string, and denotes the kind of a token (`Lexeme`). `Layout` puts these together: it cuts a text into a first
gap and pieces, each a lexeme with the gap after it, and says which tokens the pieces are. A text has at most one such
cut for given tokens (`Layout.unique`).

Nothing here mentions how a text is scanned.
-/

namespace SExprLang

/-! ## Classes of characters -/

namespace LexicalClass

/-- The only character of a class, for the classes that have a single one. -/
def sole? : LexicalClass → Option Char
  | listOpen => some '('
  | listClose => some ')'
  | quote => some '"'
  | backslash => some '\\'
  | hash => some '#'
  | space | lineBreak | other => none

theorem of_eq_iff {k : LexicalClass} {d : Char} (hk : k.sole? = some d) (c : Char) : of c = k ↔ c = d := by
  constructor
  · intro h
    subst h
    unfold of at hk
    split_ifs at hk <;> simp only [sole?, Option.some.injEq, reduceCtorEq] at hk <;> subst hk <;> assumption
  · rintro rfl
    cases k <;> simp only [sole?, Option.some.injEq, reduceCtorEq] at hk <;> subst hk <;> decide

/-- The class of line breaks is the four of them. -/
theorem of_eq_lineBreak_iff (c : Char) : of c = lineBreak ↔ Text.isLineBreak c = true := by
  constructor
  · intro h
    by_contra hb
    unfold of at h
    rw [if_neg hb] at h
    split_ifs at h
  · intro h
    unfold of
    rw [if_pos h]

end LexicalClass

namespace Lexical

/-! ## Gaps -/

/-- White space of any kind. -/
def IsBlank (c : Char) : Prop := LexicalClass.of c = .space ∨ LexicalClass.of c = .lineBreak

/-- A text without a line break. -/
def OnOneLine (text : List Char) : Prop := ∀ c ∈ text, Text.isLineBreak c = false

/-- White space, line breaks and comments with the breaks that end them. -/
inductive Gap : List Char → Prop
  | nil : Gap []
  | blank {c : Char} {gap : List Char} : IsBlank c → Gap gap → Gap (c :: gap)
  | comment {body gap : List Char} {lineEnd : Char} : OnOneLine body → Text.isLineBreak lineEnd = true → Gap gap →
      Gap ('#' :: body ++ lineEnd :: gap)

/-- A gap at the end of a text, where the last comment need not be ended by a break. -/
inductive LastGap : List Char → Prop
  | ended {gap : List Char} : Gap gap → LastGap gap
  | comment {gap body : List Char} : Gap gap → OnOneLine body → LastGap (gap ++ '#' :: body)

/-- A gap begins with a blank or a comment. -/
theorem Gap.head {c : Char} {gap : List Char} (h : Gap (c :: gap)) : IsBlank c ∨ c = '#' := by
  cases h with
  | blank hc _ => exact Or.inl hc
  | comment _ _ _ => exact Or.inr rfl

theorem LastGap.head {c : Char} {gap : List Char} (h : LastGap (c :: gap)) : IsBlank c ∨ c = '#' := by
  generalize ht : c :: gap = text at h
  cases h with
  | ended hg => subst ht; exact hg.head
  | @comment g body hg _ =>
    cases g with
    | nil => exact Or.inr (List.cons.inj ht).1
    | cons d g => exact (List.cons.inj ht).1 ▸ hg.head

theorem Gap.append {gap gap' : List Char} (h : Gap gap) (h' : Gap gap') : Gap (gap ++ gap') := by
  induction h with
  | nil => exact h'
  | blank hc _ ih => exact .blank hc ih
  | comment hbody hend _ ih =>
    rw [List.append_assoc]
    exact .comment hbody hend ih

theorem LastGap.prepend {gap gap' : List Char} (h : Gap gap) (h' : LastGap gap') : LastGap (gap ++ gap') := by
  cases h' with
  | ended hg => exact .ended (h.append hg)
  | comment hg hbody =>
    rw [← List.append_assoc]
    exact .comment (h.append hg) hbody

/-- A character with which no gap begins. -/
def BeginsNoGap (c : Char) : Prop := ¬IsBlank c ∧ c ≠ '#'

theorem not_isBlank_hash : ¬IsBlank '#' := by unfold IsBlank; decide

/-- A text splits in one way at its first line break. -/
theorem OnOneLine.split_unique {b b' : Char} {r r' : List Char} (hb : Text.isLineBreak b = true)
    (hb' : Text.isLineBreak b' = true) : ∀ {u u' : List Char}, OnOneLine u → OnOneLine u' →
    u ++ b :: r = u' ++ b' :: r' → u = u' ∧ b = b' ∧ r = r'
  | [], [], _, _, h => ⟨rfl, List.cons.inj h⟩
  | [], c :: u', _, hu', h => by
    obtain ⟨rfl, _⟩ := List.cons.inj h
    rw [hu' b List.mem_cons_self] at hb
    cases hb
  | c :: u, [], hu, _, h => by
    obtain ⟨rfl, _⟩ := List.cons.inj h
    rw [hu c List.mem_cons_self] at hb'
    cases hb'
  | c :: u, d :: u', hu, hu', h => by
    obtain ⟨rfl, htail⟩ := List.cons.inj h
    obtain ⟨rfl, hrest⟩ := split_unique hb hb' (fun x hx => hu x (List.mem_cons_of_mem _ hx))
      (fun x hx => hu' x (List.mem_cons_of_mem _ hx)) htail
    exact ⟨rfl, hrest⟩

/-- A gap goes as far as the first character with which none begins. -/
theorem Gap.unique {gap gap' r r' : List Char} {c c' : Char} (hc : BeginsNoGap c) (hc' : BeginsNoGap c') (h : Gap gap)
    (h' : Gap gap') (heq : gap ++ c :: r = gap' ++ c' :: r') : gap = gap' ∧ c :: r = c' :: r' := by
  induction h generalizing gap' with
  | nil =>
    cases h' with
    | nil => exact ⟨rfl, heq⟩
    | blank hd _ => exact absurd ((List.cons.inj heq).1 ▸ hd) hc.1
    | comment _ _ _ => exact absurd (List.cons.inj heq).1 hc.2
  | blank hd _ ih =>
    cases h' with
    | nil => exact absurd ((List.cons.inj heq).1 ▸ hd) hc'.1
    | blank _ hg' =>
      obtain ⟨rfl, htail⟩ := List.cons.inj heq
      obtain ⟨rfl, hrest⟩ := ih hg' htail
      exact ⟨rfl, hrest⟩
    | comment _ _ _ => exact absurd ((List.cons.inj heq).1 ▸ hd) not_isBlank_hash
  | comment hbody hend _ ih =>
    cases h' with
    | nil => exact absurd (List.cons.inj heq).1.symm hc'.2
    | blank hd _ => exact absurd ((List.cons.inj heq).1 ▸ hd) not_isBlank_hash
    | comment hbody' hend' hg' =>
      simp only [List.cons_append, List.append_assoc, List.cons.injEq, true_and] at heq
      obtain ⟨rfl, rfl, htail⟩ := OnOneLine.split_unique hend hend' hbody hbody' heq
      obtain ⟨rfl, hrest⟩ := ih hg' htail
      exact ⟨rfl, hrest⟩

/-! ## Lexemes -/

/-- A word: at least one character, all of them of no special class. -/
def IsWord (text : List Char) : Prop := text ≠ [] ∧ ∀ c ∈ text, LexicalClass.of c = .other

/-- What stands between the quotes of a string, as written and as meant: a backslash makes any character stand for
itself, and every other character but the quote does so anyway. -/
inductive Body : List Char → List Char → Prop
  | nil : Body [] []
  | escape (c : Char) {raw text : List Char} : Body raw text → Body ('\\' :: c :: raw) (c :: text)
  | plain {c : Char} {raw text : List Char} : c ≠ '"' → c ≠ '\\' → Body raw text → Body (c :: raw) (c :: text)

/-- The text of a token and the kind that it denotes. A word is a number if it reads as one. -/
inductive Lexeme : List Char → TokenKind → Prop
  | listOpen : Lexeme ['('] .listOpen
  | listClose : Lexeme [')'] .listClose
  | number {text : List Char} {value : Double} : IsWord text → Double.read? (String.ofList text) = some value →
      Lexeme text (.number value)
  | symbol {text : List Char} : IsWord text → Double.read? (String.ofList text) = none →
      Lexeme text (.symbol (String.ofList text))
  | string {raw text : List Char} : Body raw text → Lexeme ('"' :: raw ++ ['"']) (.string (String.ofList text))

/-- A word begins with no character of a special class. -/
theorem not_isWord_cons {c : Char} (hc : LexicalClass.of c ≠ .other) (text : List Char) : ¬IsWord (c :: text) :=
  fun h => hc (h.2 c List.mem_cons_self)

theorem IsWord.head {c : Char} {text : List Char} (h : IsWord (c :: text)) : BeginsNoGap c := by
  have hc := h.2 c List.mem_cons_self
  refine ⟨?_, ?_⟩
  · rintro (hs | hs) <;> rw [hc] at hs <;> cases hs
  · rintro rfl; revert hc; decide

/-- No lexeme begins as a gap does. -/
theorem Lexeme.head {text : List Char} {kind : TokenKind} (h : Lexeme text kind) :
    ∃ c rest, text = c :: rest ∧ BeginsNoGap c := by
  have hword : IsWord text → ∃ c rest, text = c :: rest ∧ BeginsNoGap c := by
    intro hw
    obtain ⟨c, rest, rfl⟩ := List.exists_cons_of_ne_nil hw.1
    exact ⟨c, rest, rfl, hw.head⟩
  cases h with
  | listOpen => exact ⟨'(', [], rfl, by unfold BeginsNoGap IsBlank; decide⟩
  | listClose => exact ⟨')', [], rfl, by unfold BeginsNoGap IsBlank; decide⟩
  | number hw _ => exact hword hw
  | symbol hw _ => exact hword hw
  | string _ => exact ⟨'"', _, rfl, by unfold BeginsNoGap IsBlank; decide⟩

/-! ## Layouts -/

/-- A lexeme and the gap after it. -/
structure Piece where
  lexeme : List Char
  gap : List Char

/-- The text of a first gap and the pieces after it. -/
def join (gap : List Char) (pieces : List Piece) : List Char :=
  gap ++ pieces.flatMap fun piece => piece.lexeme ++ piece.gap

/-- What may follow a word: a gap that begins with a blank, or no gap at all and then a parenthesis or the end. -/
def Apart (gap : List Char) (pieces : List Piece) : Prop :=
  (∃ c rest, gap = c :: rest ∧ IsBlank c) ∨
    gap = [] ∧ (pieces = [] ∨ ∃ piece rest, pieces = piece :: rest ∧ (piece.lexeme = ['('] ∨ piece.lexeme = [')']))

/-- `Layout before gap pieces tokens` says that a text which follows the text `before` is cut into the first gap `gap`
and the pieces `pieces` and has the tokens `tokens`. -/
inductive Layout : List Char → List Char → List Piece → List Token → Prop
  | last {before gap : List Char} : LastGap gap → Layout before gap [] []
  | token {before gap : List Char} {piece : Piece} {pieces : List Piece} {kind : TokenKind} {tokens : List Token} :
      Gap gap → Lexeme piece.lexeme kind → (IsWord piece.lexeme → Apart piece.gap pieces) →
      Layout (before ++ gap ++ piece.lexeme) piece.gap pieces tokens →
      Layout before gap (piece :: pieces)
        (⟨kind, String.ofList piece.lexeme, Position.after (before ++ gap)⟩ :: tokens)

@[simp]
theorem join_nil (gap : List Char) : join gap [] = gap := List.append_nil gap

@[simp]
theorem join_cons (gap : List Char) (piece : Piece) (pieces : List Piece) :
    join gap (piece :: pieces) = gap ++ (piece.lexeme ++ join piece.gap pieces) := by
  simp [join]

/-- Tokens determine the cut of a text: they give the lexemes, and the gaps between these can only be what is left. -/
theorem Layout.unique {before gap gap' : List Char} {pieces pieces' : List Piece} {tokens : List Token}
    (h : Layout before gap pieces tokens) (h' : Layout before gap' pieces' tokens)
    (heq : join gap pieces = join gap' pieces') : gap = gap' ∧ pieces = pieces' := by
  induction h generalizing gap' pieces' with
  | last _ =>
    cases h' with
    | last _ => exact ⟨by simpa using heq, rfl⟩
  | @token before gap piece pieces kind tokens hg hl _ _ ih =>
    generalize ht : (⟨kind, String.ofList piece.lexeme, Position.after (before ++ gap)⟩ : Token) :: tokens = ts at h'
    cases h' with
    | last _ => cases ht
    | @token _ _ piece' pieces' kind' tokens' hg' hl' _ hrest' =>
      simp only [List.cons.injEq, Token.mk.injEq, String.ofList_inj] at ht
      obtain ⟨⟨_, hlex, _⟩, rfl⟩ := ht
      obtain ⟨lexeme, after⟩ := piece
      obtain ⟨lexeme', after'⟩ := piece'
      simp only at hlex hl hl' hrest' ih
      subst hlex
      obtain ⟨c, rest, rfl, hc⟩ := hl.head
      simp only [join_cons, List.cons_append] at heq
      obtain ⟨rfl, htail⟩ := Gap.unique hc hc hg hg' heq
      obtain ⟨rfl, rfl⟩ := ih hrest' (List.append_cancel_left (List.cons.inj htail).2)
      exact ⟨rfl, rfl⟩

/-! ## What follows a word -/

/-- A text before which a word may end. -/
def EndsWord : List Char → Prop
  | [] => True
  | c :: _ => IsBlank c ∨ c = '(' ∨ c = ')'

/-- A lexeme that begins with a parenthesis is that parenthesis. -/
theorem Lexeme.eq_singleton {c : Char} {rest : List Char} {kind : TokenKind} (h : Lexeme (c :: rest) kind)
    (hc : c = '(' ∨ c = ')') : rest = [] := by
  have hword : ¬IsWord (c :: rest) := by
    rcases hc with rfl | rfl <;> exact not_isWord_cons (by decide) rest
  generalize ht : c :: rest = text at h hword
  cases h with
  | listOpen => exact (List.cons.inj ht).2
  | listClose => exact (List.cons.inj ht).2
  | number hw _ => exact absurd hw hword
  | symbol hw _ => exact absurd hw hword
  | string _ =>
    obtain ⟨rfl, _⟩ := List.cons.inj ht
    exact absurd hc (by decide)

/-- The condition on the pieces after a word is one on the text of these pieces. -/
theorem Layout.apart_iff {before gap : List Char} {pieces : List Piece} {tokens : List Token}
    (h : Layout before gap pieces tokens) : Apart gap pieces ↔ EndsWord (join gap pieces) := by
  constructor
  · rintro (⟨c, rest, rfl, hc⟩ | ⟨rfl, rfl | ⟨piece, rest, rfl, hp⟩⟩)
    · exact Or.inl hc
    · trivial
    · rcases hp with hp | hp <;> simp [EndsWord, hp]
  · intro he
    cases gap with
    | cons c rest =>
      have hc : IsBlank c ∨ c = '#' := by
        cases h with
        | last hg => exact hg.head
        | token hg _ _ _ => exact hg.head
      rcases hc with hc | rfl
      · exact Or.inl ⟨c, rest, rfl, hc⟩
      · rcases he with he | he
        · exact absurd he not_isBlank_hash
        · exact absurd he (by decide)
    | nil =>
      refine Or.inr ⟨rfl, ?_⟩
      cases h with
      | last _ => exact Or.inl rfl
      | @token _ _ piece pieces _ _ _ hl _ _ =>
        obtain ⟨c, rest, hp, hc⟩ := hl.head
        rw [join_cons, hp] at he
        have hparen : c = '(' ∨ c = ')' := he.resolve_left hc.1
        have hrest := (hp ▸ hl).eq_singleton hparen
        refine Or.inr ⟨piece, pieces, rfl, ?_⟩
        rw [hp, hrest]
        exact hparen.imp (congrArg ([·])) (congrArg ([·]))

end Lexical

end SExprLang
