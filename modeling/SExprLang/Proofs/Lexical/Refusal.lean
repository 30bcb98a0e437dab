import SExprLang.Proofs.Lexical.Exact

/-!
# Where a scan refuses a text

A text with tokens ends between tokens, inside of a word or inside of a comment (`Ending`), and this alone decides what
may follow: a scan that has read the text is in the mode of its ending (`Layout.run_ends`). So a text is refused exactly if
it is a text with tokens and then a character that its ending does not bear (`scanChars_eq_error_iff`): a misplaced one, or
a quote that is never closed. `scan_error_exact` spells this out.
-/

namespace SExprLang

open Lexical

namespace Lexical

/-! ## Quotes that close -/

/-- Whether a text has a quote of its own, if it is read from left to right and a backslash takes the character after it
along. -/
def hasBareQuote : List Char → Bool
  | '\\' :: _ :: rest => hasBareQuote rest
  | c :: rest => c == '"' || hasBareQuote rest
  | [] => false

/-- The inside of a string has no quote of its own. -/
theorem Body.hasBareQuote_append {body value : List Char} (h : Body body value) (k : List Char) :
    hasBareQuote (body ++ k) = hasBareQuote k := by
  induction h with
  | nil => rfl
  | escape c _ ih => exact ih
  | plain hq hb _ ih => simp [hasBareQuote, hq, hb, ih]

/-- A text without such a quote is the inside of a string that goes on, perhaps after one more backslash. -/
theorem hasBareQuote_eq_false_iff {text : List Char} : hasBareQuote text = false ↔
    ∃ body value, Body body value ∧ (text = body ∨ text = body ++ ['\\']) := by
  constructor
  · intro h
    rcases split_body text with ⟨body, value, rest, rfl, hb⟩ | hopen
    · rw [hb.hasBareQuote_append] at h
      cases h
    · exact hopen
  · rintro ⟨body, value, hb, rfl | rfl⟩
    · rw [← List.append_nil text, hb.hasBareQuote_append]
      rfl
    · rw [hb.hasBareQuote_append]
      rfl

/-! ## Endings -/

/-- What the end of a text with tokens stands in. -/
inductive Ending where
  | between
  | word
  | comment
deriving DecidableEq

/-- `Ends gap pieces ending` says what the text of a first gap and the pieces after it ends in. -/
inductive Ends : List Char → List Piece → Ending → Prop
  /-- All comments of the last gap are ended by a break. -/
  | between {gap : List Char} : Gap gap → Ends gap [] .between
  /-- The last comment has no break yet. -/
  | comment {gap body : List Char} : Gap gap → OnOneLine body → Ends (gap ++ '#' :: body) [] .comment
  /-- A word has nothing after it. -/
  | word {gap word : List Char} : IsWord word → Ends gap [⟨word, []⟩] .word
  /-- Otherwise the end is that of what comes after the first piece. -/
  | piece {gap : List Char} {piece : Piece} {pieces : List Piece} {ending : Ending} :
      (IsWord piece.lexeme → join piece.gap pieces ≠ []) → Ends piece.gap pieces ending →
      Ends gap (piece :: pieces) ending

/-- The text has tokens and ends so. -/
def EndsIn (u : List Char) (ending : Ending) : Prop :=
  ∃ gap pieces tokens, u = join gap pieces ∧ Layout [] gap pieces tokens ∧ Ends gap pieces ending

/-- The modes of a scan at an ending. -/
inductive Ending.Mode : Ending → Scan.Mode → Prop
  | between : Mode .between .between
  | word (first : Cursor) (text : List Char) : Mode .word (.word first text)
  | comment : Mode .comment .comment

/-- Whether a word may end before a text is a matter of its first character. -/
theorem endsWord_append_iff {text : List Char} (hne : text ≠ []) (k : List Char) :
    EndsWord (text ++ k) ↔ EndsWord text := by
  obtain ⟨c, text, rfl⟩ := List.exists_cons_of_ne_nil hne
  rfl

/-- A layout without text has no lexeme. -/
theorem Layout.eq_nil_of_join {before gap : List Char} {pieces : List Piece} {tokens : List Token}
    (h : Layout before gap pieces tokens) (hnil : join gap pieces = []) : gap = [] ∧ pieces = [] := by
  cases h with
  | last _ => exact ⟨by simpa using hnil, rfl⟩
  | token _ hl _ _ =>
    obtain ⟨c, rest, hlexeme, _⟩ := hl.head
    rw [join_cons, hlexeme] at hnil
    simp at hnil

/-- Every layout has an ending. -/
theorem Layout.exists_ends {before gap : List Char} {pieces : List Piece} {tokens : List Token}
    (h : Layout before gap pieces tokens) : ∃ ending, Ends gap pieces ending := by
  induction h with
  | last hg =>
    cases hg with
    | ended hg => exact ⟨_, .between hg⟩
    | comment hg hbody => exact ⟨_, .comment hg hbody⟩
  | @token before gap piece pieces kind tokens _ _ _ hrest ih =>
    obtain ⟨ending, hends⟩ := ih
    by_cases hword : IsWord piece.lexeme ∧ join piece.gap pieces = []
    · obtain ⟨lexeme, after⟩ := piece
      obtain ⟨hlexeme, hnil⟩ := hword
      obtain ⟨rfl, rfl⟩ := hrest.eq_nil_of_join hnil
      exact ⟨_, .word hlexeme⟩
    · exact ⟨ending, .piece (fun hw hnil => hword ⟨hw, hnil⟩) hends⟩

/-- **A scan that has read a layout is in the mode of its ending.** -/
theorem Layout.run_ends {before gap : List Char} {pieces : List Piece} {tokens : List Token} {ending : Ending}
    (h : Layout before gap pieces tokens) (hends : Ends gap pieces ending) (earlier : List Token) :
    ∃ mode tokens', ending.Mode mode ∧ ∀ k,
      Scan.run ⟨Cursor.start.past before, .between, earlier⟩ (join gap pieces ++ k) =
        Scan.run ⟨Cursor.start.past (before ++ join gap pieces), mode, tokens'⟩ k := by
  induction h generalizing earlier with
  | last _ =>
    cases hends with
    | between hg =>
      refine ⟨_, earlier, .between, fun k => ?_⟩
      rw [join_nil, Scan.run_gap hg, Cursor.past_append]
    | comment hg hbody =>
      refine ⟨_, earlier, .comment, fun k => ?_⟩
      rw [join_nil, List.append_assoc, List.cons_append, Scan.run_gap hg, Scan.run_hash, Scan.run_comment hbody]
      simp
  | @token before gap piece pieces kind tokens hg hl hapart hrest ih =>
    cases hends with
    | @word _ word hw =>
      refine ⟨_, earlier, .word ((Cursor.start.past before).past gap) word.reverse, fun k => ?_⟩
      rw [join_cons, join_nil, List.append_nil, List.append_assoc, Scan.run_gap hg, Scan.run_isWord hw]
      simp
    | piece hne hends =>
      have hplace : ((Cursor.start.past before).past gap).past piece.lexeme =
          Cursor.start.past (before ++ gap ++ piece.lexeme) := by
        rw [Cursor.past_append, Cursor.past_append]
      obtain ⟨mode, tokens', hmode, hrun⟩ :=
        ih hends (⟨kind, String.ofList piece.lexeme, ((Cursor.start.past before).past gap).position⟩ :: earlier)
      refine ⟨mode, tokens', hmode, fun k => ?_⟩
      have hk : IsWord piece.lexeme → EndsWord (join piece.gap pieces ++ k) := fun hw =>
        (endsWord_append_iff (hne hw) k).2 (hrest.apart_iff.1 (hapart hw))
      rw [join_cons, List.append_assoc, List.append_assoc, Scan.run_gap hg, Scan.run_lexeme hl hk, hplace, hrun]
      simp only [List.append_assoc]

/-! ## Refusals -/

/-- `Refuses position ending c rest error` says that after a text with the ending, the character `c` at the position and
the text `rest` after it are refused. -/
inductive Refuses (position : Position) : Ending → Char → List Char → LexError → Prop
  | backslash {rest : List Char} : Refuses position .between '\\' rest (.misplacedChar '\\' position)
  | afterWord {c : Char} {rest : List Char} : c = '"' ∨ c = '\\' ∨ c = '#' →
      Refuses position .word c rest (.misplacedChar c position)
  | openString {rest : List Char} : hasBareQuote rest = false → Refuses position .between '"' rest .unfinishedString

/-- A scan reports a refusal. -/
theorem Refuses.run_eq {cursor : Cursor} {ending : Ending} {c : Char} {rest : List Char} {error : LexError}
    (h : Refuses cursor.position ending c rest error) {mode : Scan.Mode} (hmode : ending.Mode mode)
    (tokens : List Token) : Scan.run ⟨cursor, mode, tokens⟩ (c :: rest) = .error error := by
  cases h with
  | backslash =>
    cases hmode
    exact Scan.run_of_transition_error rfl
  | afterWord hc =>
    cases hmode
    apply Scan.run_of_transition_error
    rcases hc with rfl | rfl | rfl <;> rfl
  | openString hopen =>
    cases hmode
    obtain ⟨body, value, hb, rfl | rfl⟩ := hasBareQuote_eq_false_iff.1 hopen
    · rw [Scan.run_openQuote, ← List.append_nil rest, Scan.run_body hb]
      rfl
    · rw [Scan.run_openQuote, Scan.run_body hb]
      rfl

/-- No refused character ends a word. -/
theorem Refuses.not_endsWord {position : Position} {ending : Ending} {c : Char} {rest : List Char} {error : LexError}
    (h : Refuses position ending c rest error) : ¬EndsWord (c :: rest) := by
  have hc : c = '"' ∨ c = '\\' ∨ c = '#' := by
    cases h with
    | backslash => exact Or.inr (Or.inl rfl)
    | afterWord hc => exact hc
    | openString _ => exact Or.inl rfl
  simp only [EndsWord, IsBlank]
  rcases hc with rfl | rfl | rfl <;> decide

/-- A text that is at fault is one with a layout and then a refused character. -/
theorem Fault.exists_refuses {before text : List Char} {error : LexError} (h : Fault before text error) :
    ∃ gap pieces tokens ending c rest, text = join gap pieces ++ c :: rest ∧ Layout before gap pieces tokens ∧
      Ends gap pieces ending ∧ Refuses (Position.after (before ++ join gap pieces)) ending c rest error := by
  induction h with
  | @backslash before gap rest hg =>
    refine ⟨gap, [], [], .between, '\\', rest, by rw [join_nil], .last (.ended hg), .between hg, ?_⟩
    rw [join_nil]
    exact .backslash
  | @afterWord before gap word rest c hg hw hc =>
    obtain ⟨kind, hl⟩ := hw.exists_lexeme
    refine ⟨gap, [⟨word, []⟩], _, .word, c, rest, by simp, .token hg hl ?_ (.last (.ended .nil)), .word hw, ?_⟩
    · exact fun _ => Or.inr ⟨rfl, Or.inl rfl⟩
    · rw [join_cons, join_nil, List.append_nil]
      exact .afterWord hc
  | @openString before gap body value hg hb =>
    refine ⟨gap, [], [], .between, '"', body, by rw [join_nil], .last (.ended hg), .between hg, .openString ?_⟩
    exact hasBareQuote_eq_false_iff.2 ⟨body, value, hb, Or.inl rfl⟩
  | @openEscape before gap body value hg hb =>
    refine ⟨gap, [], [], .between, '"', body ++ ['\\'], by rw [join_nil], .last (.ended hg), .between hg, .openString ?_⟩
    exact hasBareQuote_eq_false_iff.2 ⟨body, value, hb, Or.inr rfl⟩
  | @later before gap lexeme rest kind error hg hl hends _ ih =>
    obtain ⟨gap', pieces, tokens, ending, c, rest', rfl, hlayout, hending, hrefuses⟩ := ih
    -- the refused character does not follow a word directly, so that the ending stays
    have hne : IsWord lexeme → join gap' pieces ≠ [] := by
      intro hw hnil
      have hc := hends hw
      rw [hnil] at hc
      exact hrefuses.not_endsWord hc
    refine ⟨gap, ⟨lexeme, gap'⟩ :: pieces, _, ending, c, rest', by simp, .token hg hl ?_ hlayout, .piece hne hending, ?_⟩
    · exact fun hw => hlayout.apart_iff.2 ((endsWord_append_iff (hne hw) _).1 (hends hw))
    · simpa using hrefuses

/-- A text that ends so is read up to a mode of the ending. -/
theorem EndsIn.run_eq {u : List Char} {ending : Ending} (h : EndsIn u ending) :
    ∃ mode tokens, ending.Mode mode ∧ ∀ k,
      Token.scanChars (u ++ k) = Scan.run ⟨⟨u.length, Position.after u, u.getLast? == some '\r'⟩, mode, tokens⟩ k := by
  obtain ⟨gap, pieces, tokens, rfl, hlayout, hends⟩ := h
  obtain ⟨mode, tokens', hmode, hrun⟩ := hlayout.run_ends hends []
  rw [List.nil_append, Cursor.start_past (join gap pieces)] at hrun
  exact ⟨mode, tokens', hmode, hrun⟩

/-- **A text is refused iff it is a text with tokens and then a character that its ending does not bear.** -/
theorem scanChars_eq_error_iff {text : List Char} {error : LexError} : Token.scanChars text = .error error ↔
    ∃ u ending c rest, text = u ++ c :: rest ∧ EndsIn u ending ∧ Refuses (Position.after u) ending c rest error := by
  constructor
  · intro h
    rcases layout_or_fault [] text with ⟨gap, pieces, tokens, rfl, hlayout⟩ | ⟨error', hfault⟩
    · rw [scanChars_eq_ok_iff.2 ⟨gap, pieces, rfl, hlayout⟩] at h
      cases h
    · have hreported : Token.scanChars text = .error error' := hfault.run_eq []
      obtain rfl := Except.error.inj (hreported.symm.trans h)
      obtain ⟨gap, pieces, tokens, ending, c, rest, htext, hlayout, hends, hrefuses⟩ := hfault.exists_refuses
      exact ⟨join gap pieces, ending, c, rest, htext, ⟨gap, pieces, tokens, rfl, hlayout, hends⟩, hrefuses⟩
  · rintro ⟨u, ending, c, rest, rfl, hends, hrefuses⟩
    obtain ⟨mode, tokens, hmode, hrun⟩ := hends.run_eq
    rw [hrun]
    exact hrefuses.run_eq hmode tokens

/-! ## Endings of texts with tokens -/

theorem EndsIn.exists_tokens {u : List Char} {ending : Ending} (h : EndsIn u ending) :
    ∃ tokens, Token.scanChars u = .ok tokens := by
  obtain ⟨gap, pieces, tokens, hu, hlayout, _⟩ := h
  exact ⟨tokens, scanChars_eq_ok_iff.2 ⟨gap, pieces, hu, hlayout⟩⟩

/-- A text ends in one way only: a backslash after it is borne in a comment alone, and a hash everywhere but in a word. -/
theorem EndsIn.unique {u : List Char} {a b : Ending} (ha : EndsIn u a) (hb : EndsIn u b) : a = b := by
  have hprobe : ∀ {ending}, EndsIn u ending →
      (Token.scanChars (u ++ ['\\'])).isOk = (ending == .comment) ∧
        (Token.scanChars (u ++ ['#'])).isOk = (ending != .word) := by
    intro ending h
    obtain ⟨mode, tokens, hmode, hrun⟩ := h.run_eq
    rw [hrun, hrun]
    cases hmode <;> exact ⟨rfl, rfl⟩
  obtain ⟨hback, hhash⟩ := hprobe ha
  obtain ⟨hback', hhash'⟩ := hprobe hb
  rw [hback'] at hback
  rw [hhash'] at hhash
  revert hback hhash
  cases a <;> cases b <;> decide

/-- A text that ends neither in a word nor in a comment ends between tokens. -/
theorem endsIn_between_iff {u : List Char} : EndsIn u .between ↔
    (∃ tokens, Token.scanChars u = .ok tokens) ∧ ¬EndsIn u .word ∧ ¬EndsIn u .comment := by
  constructor
  · intro h
    refine ⟨h.exists_tokens, ?_, ?_⟩
    · intro hword
      cases h.unique hword
    · intro hcomment
      cases h.unique hcomment
  · rintro ⟨⟨tokens, hscan⟩, hword, hcomment⟩
    obtain ⟨gap, pieces, hu, hlayout⟩ := scanChars_eq_ok_iff.1 hscan
    obtain ⟨ending, hends⟩ := hlayout.exists_ends
    have hin : EndsIn u ending := ⟨gap, pieces, tokens, hu, hlayout, hends⟩
    cases ending with
    | between => exact hin
    | word => exact absurd hin hword
    | comment => exact absurd hin hcomment

/-! ## Misplaced characters and open strings -/

/-- A character that cannot stand after the text `u`, which has tokens: a quote, a backslash or a hash in a word, or a
backslash where there is neither a word nor a comment. -/
def Misplaced (u : List Char) (c : Char) : Prop :=
  (∃ tokens, Token.scanChars u = .ok tokens) ∧
    ((c = '"' ∨ c = '\\' ∨ c = '#') ∧ EndsIn u .word ∨ c = '\\' ∧ ¬EndsIn u .word ∧ ¬EndsIn u .comment)

theorem scanChars_misplacedChar_iff {text : List Char} {c : Char} {position : Position} :
    Token.scanChars text = .error (.misplacedChar c position) ↔
      ∃ u rest, text = u ++ c :: rest ∧ Misplaced u c ∧ position = Position.after u := by
  rw [scanChars_eq_error_iff]
  constructor
  · rintro ⟨u, ending, c', rest, rfl, hends, hrefuses⟩
    cases hrefuses with
    | backslash =>
      obtain ⟨htokens, hneither⟩ := endsIn_between_iff.1 hends
      exact ⟨u, rest, rfl, ⟨htokens, Or.inr ⟨rfl, hneither⟩⟩, rfl⟩
    | afterWord hc =>
      exact ⟨u, rest, rfl, ⟨hends.exists_tokens, Or.inl ⟨hc, hends⟩⟩, rfl⟩
  · rintro ⟨u, rest, rfl, ⟨htokens, ⟨hc, hword⟩ | ⟨rfl, hneither⟩⟩, rfl⟩
    · exact ⟨u, .word, c, rest, rfl, hword, .afterWord hc⟩
    · exact ⟨u, .between, _, rest, rfl, endsIn_between_iff.2 ⟨htokens, hneither⟩, .backslash⟩

theorem scanChars_unfinishedString_iff {text : List Char} : Token.scanChars text = .error .unfinishedString ↔
    ∃ u rest, text = u ++ '"' :: rest ∧ (∃ tokens, Token.scanChars u = .ok tokens) ∧ ¬EndsIn u .word ∧
      ¬EndsIn u .comment ∧ hasBareQuote rest = false := by
  rw [scanChars_eq_error_iff]
  constructor
  · rintro ⟨u, ending, c, rest, rfl, hends, hrefuses⟩
    cases hrefuses with
    | openString hopen =>
      obtain ⟨htokens, hword, hcomment⟩ := endsIn_between_iff.1 hends
      exact ⟨u, rest, rfl, htokens, hword, hcomment, hopen⟩
  · rintro ⟨u, rest, rfl, htokens, hword, hcomment, hopen⟩
    exact ⟨u, .between, '"', rest, rfl, endsIn_between_iff.2 ⟨htokens, hword, hcomment⟩, .openString hopen⟩

/-- A misplaced character is reported whatever follows it. -/
theorem Misplaced.scanChars_eq {u : List Char} {c : Char} (h : Misplaced u c) (rest : List Char) :
    Token.scanChars (u ++ c :: rest) = .error (.misplacedChar c (Position.after u)) :=
  scanChars_misplacedChar_iff.2 ⟨u, rest, rfl, h, rfl⟩

/-- No text with tokens goes past a misplaced character, so there is only one first of them. -/
theorem Misplaced.split_unique {u u' rest rest' : List Char} {c c' : Char} (h : Misplaced u c) (h' : Misplaced u' c')
    (heq : u ++ c :: rest = u' ++ c' :: rest') : u = u' ∧ c = c' ∧ rest = rest' := by
  have hpast : ∀ {u v : List Char} {c d : Char}, Misplaced u c → ¬Misplaced (u ++ c :: v) d := by
    intro u v c d hu hv
    obtain ⟨tokens, hscan⟩ := hv.1
    rw [hu.scanChars_eq] at hscan
    cases hscan
  rcases List.append_eq_append_iff.1 heq with ⟨v, rfl, hv⟩ | ⟨v, rfl, hv⟩
  · cases v with
    | nil => exact ⟨(List.append_nil u).symm, List.cons.inj hv⟩
    | cons d v =>
      obtain ⟨rfl, _⟩ := List.cons.inj hv
      exact absurd h' (hpast h)
  · cases v with
    | nil =>
      obtain ⟨rfl, rfl⟩ := List.cons.inj hv
      exact ⟨List.append_nil u', rfl, rfl⟩
    | cons d v =>
      obtain ⟨rfl, _⟩ := List.cons.inj hv
      exact absurd h (hpast h')

end Lexical

/-! ## The main result -/

/-- **A scan refuses a text at the first possible point and says why.** It reports a misplaced character iff the text goes
on with one after a beginning that has tokens; there is only one such beginning, and what follows makes no difference. It
reports an unfinished string iff a quote after such a beginning is never closed. It has tokens in all other cases. -/
theorem scan_error_exact (text : String) :
    (∀ c position, Token.scan text = .error (.misplacedChar c position) ↔
      ∃ u v, text.toList = u ++ c :: v ∧ Misplaced u c ∧ position = Position.after u) ∧
    (∀ u v c, text.toList = u ++ c :: v → Misplaced u c →
      (∀ u' v' c', text.toList = u' ++ c' :: v' → Misplaced u' c' → u' = u ∧ c' = c ∧ v' = v) ∧
      ∀ v', Token.scan (String.ofList (u ++ c :: v')) = Token.scan text) ∧
    (Token.scan text = .error .unfinishedString ↔
      ∃ u w, text.toList = u ++ '"' :: w ∧ (∃ tokens, Token.scanChars u = .ok tokens) ∧ ¬EndsIn u .word ∧
        ¬EndsIn u .comment ∧ hasBareQuote w = false) ∧
    ((¬∃ u v c, text.toList = u ++ c :: v ∧ Misplaced u c) →
      (¬∃ u w, text.toList = u ++ '"' :: w ∧ (∃ tokens, Token.scanChars u = .ok tokens) ∧ ¬EndsIn u .word ∧
        ¬EndsIn u .comment ∧ hasBareQuote w = false) →
      ∃ tokens, Token.scan text = .ok tokens) := by
  refine ⟨fun c position => scanChars_misplacedChar_iff, ?_, scanChars_unfinishedString_iff, ?_⟩
  · intro u v c htext h
    refine ⟨?_, ?_⟩
    · intro u' v' c' htext' h'
      exact h'.split_unique h (htext'.symm.trans htext)
    · intro v'
      rw [Token.scan, Token.scan, String.toList_ofList, htext, h.scanChars_eq, h.scanChars_eq]
  · intro hmisplaced hopen
    cases hscan : Token.scan text with
    | ok tokens => exact ⟨tokens, rfl⟩
    | error error =>
      cases error with
      | misplacedChar c position =>
        obtain ⟨u, v, htext, h, _⟩ := scanChars_misplacedChar_iff.1 hscan
        exact absurd ⟨u, v, c, htext, h⟩ hmisplaced
      | unfinishedString => exact absurd (scanChars_unfinishedString_iff.1 hscan) hopen

end SExprLang
