import SExprLang.Proofs.Lexical.Reading

/-!
# Texts without a layout

What can be wrong with a text (`Fault`): a backslash between tokens, a quote, a backslash or a hash right after a word, or
an end of the text inside a string. Every text has a layout or a fault (`layout_or_fault`), and reading reports the fault
(`Fault.run_eq`), so that the tokens of a text are those of its layout and of nothing else (`scanChars_eq_ok_iff`).
-/

namespace SExprLang.Lexical

/-- `Fault before text error` says what is wrong with a text which follows the text `before`. -/
inductive Fault : List Char → List Char → LexError → Prop
  | backslash {before gap rest : List Char} : Gap gap →
      Fault before (gap ++ '\\' :: rest) (.misplacedChar '\\' (Position.after (before ++ gap)))
  | afterWord {before gap word rest : List Char} {c : Char} : Gap gap → IsWord word → (c = '"' ∨ c = '\\' ∨ c = '#') →
      Fault before (gap ++ (word ++ c :: rest)) (.misplacedChar c (Position.after (before ++ (gap ++ word))))
  | openString {before gap body value : List Char} : Gap gap → Body body value →
      Fault before (gap ++ '"' :: body) .unfinishedString
  | openEscape {before gap body value : List Char} : Gap gap → Body body value →
      Fault before (gap ++ '"' :: (body ++ ['\\'])) .unfinishedString
  | later {before gap lexeme rest : List Char} {kind : TokenKind} {error : LexError} : Gap gap → Lexeme lexeme kind →
      (IsWord lexeme → EndsWord rest) → Fault (before ++ gap ++ lexeme) rest error →
      Fault before (gap ++ (lexeme ++ rest)) error

/-! ## Reading a fault -/

section Reading

variable {cursor : Cursor} {tokens : List Token} {k : List Char}

/-- A word does not bear a quote, a backslash or a hash right after it. -/
theorem run_afterWord {word : List Char} {c : Char} (hw : IsWord word) (hc : c = '"' ∨ c = '\\' ∨ c = '#') :
    Scan.run ⟨cursor, .between, tokens⟩ (word ++ c :: k) = .error (.misplacedChar c (cursor.past word).position) := by
  rw [Scan.run_isWord hw]
  apply Scan.run_of_transition_error
  rcases hc with rfl | rfl | rfl <;> rfl

/-- **Reading reports the fault.** -/
theorem Fault.run_eq {before text : List Char} {error : LexError} (h : Fault before text error)
    (earlier : List Token) : Scan.run ⟨Cursor.start.past before, .between, earlier⟩ text = .error error := by
  induction h generalizing earlier with
  | backslash hg =>
    rw [Scan.run_gap hg, ← Cursor.past_append, Scan.run_of_transition_error rfl, Cursor.start_past]
  | afterWord hg hw hc =>
    rw [Scan.run_gap hg, run_afterWord hw hc, ← Cursor.past_append, ← Cursor.past_append, Cursor.start_past]
  | @openString _ _ body _ hg hb =>
    rw [Scan.run_gap hg, Scan.run_openQuote, ← List.append_nil body, Scan.run_body hb]
    rfl
  | openEscape hg hb =>
    rw [Scan.run_gap hg, Scan.run_openQuote, Scan.run_body hb]
    rfl
  | later hg hl hends _ ih =>
    rw [Scan.run_gap hg, Scan.run_lexeme hl hends, ← Cursor.past_append, ← Cursor.past_append, ← List.append_assoc, ih]

end Reading

/-! ## Every text has a layout or a fault -/

/-- A text is on one line or has a first line break. -/
theorem split_line : ∀ text : List Char, OnOneLine text ∨
    ∃ body lineEnd rest, text = body ++ lineEnd :: rest ∧ OnOneLine body ∧ Text.isLineBreak lineEnd = true
  | [] => Or.inl (List.forall_mem_nil _)
  | c :: text => by
    cases hc : Text.isLineBreak c with
    | true => exact Or.inr ⟨[], c, text, rfl, List.forall_mem_nil _, hc⟩
    | false =>
      rcases split_line text with h | ⟨body, lineEnd, rest, rfl, hbody, hend⟩
      · exact Or.inl (List.forall_mem_cons.2 ⟨hc, h⟩)
      · exact Or.inr ⟨c :: body, lineEnd, rest, rfl, List.forall_mem_cons.2 ⟨hc, hbody⟩, hend⟩

/-- A text that is a gap, or a gap and then a character with which none begins. -/
def GapFirst (text : List Char) : Prop :=
  LastGap text ∨ ∃ gap c rest, text = gap ++ c :: rest ∧ Gap gap ∧ BeginsNoGap c

theorem GapFirst.prepend {gap text : List Char} (hg : Gap gap) (h : GapFirst text) : GapFirst (gap ++ text) := by
  rcases h with h | ⟨gap', c, rest, rfl, hg', hc⟩
  · exact Or.inl (LastGap.prepend hg h)
  · exact Or.inr ⟨gap ++ gap', c, rest, by simp, hg.append hg', hc⟩

theorem gapFirst (text : List Char) : GapFirst text := by
  -- by length, since a comment is skipped as a whole
  induction hn : text.length using Nat.strong_induction_on generalizing text with
  | _ n ih =>
    cases text with
    | nil => exact Or.inl (.ended .nil)
    | cons c text =>
      simp only [List.length_cons] at hn
      by_cases hc : IsBlank c
      · exact GapFirst.prepend (.blank hc .nil) (ih text.length (by omega) text rfl)
      by_cases hh : c = '#'
      · subst hh
        rcases split_line text with h | ⟨body, lineEnd, rest, rfl, hbody, hend⟩
        · exact Or.inl (.comment .nil h)
        · simp only [List.length_append, List.length_cons] at hn
          have := GapFirst.prepend (.comment hbody hend .nil) (ih rest.length (by omega) rest rfl)
          simpa using this
      · exact Or.inr ⟨[], c, text, rfl, .nil, hc, hh⟩

/-- A text that begins with a character of no special class begins with a longest word. -/
theorem split_word : ∀ {c : Char} (text : List Char), LexicalClass.of c = .other →
    ∃ word rest, c :: text = word ++ rest ∧ IsWord word ∧ ∀ d r, rest = d :: r → LexicalClass.of d ≠ .other
  | c, [], hc => ⟨[c], [], rfl, ⟨by simp, by simpa using hc⟩, by simp⟩
  | c, d :: text, hc => by
    by_cases hd : LexicalClass.of d = .other
    · obtain ⟨word, rest, heq, hw, hrest⟩ := split_word text hd
      exact ⟨c :: word, rest, by rw [heq]; rfl, ⟨by simp, List.forall_mem_cons.2 ⟨hc, hw.2⟩⟩, hrest⟩
    · refine ⟨[c], d :: text, rfl, ⟨by simp, by simpa using hc⟩, ?_⟩
      rintro _ _ ⟨⟩
      exact hd

/-- After an opening quote a text has a closing quote or ends inside the string. -/
theorem split_body : ∀ text : List Char, (∃ body value rest, text = body ++ '"' :: rest ∧ Body body value) ∨
    ∃ body value, Body body value ∧ (text = body ∨ text = body ++ ['\\'])
  | [] => Or.inr ⟨[], [], .nil, Or.inl rfl⟩
  | c :: text => by
    by_cases hq : c = '"'
    · subst hq
      exact Or.inl ⟨[], [], text, rfl, .nil⟩
    by_cases hb : c = '\\'
    · subst hb
      match text with
      | [] => exact Or.inr ⟨[], [], .nil, Or.inr rfl⟩
      | d :: text =>
        rcases split_body text with ⟨body, value, rest, rfl, h⟩ | ⟨body, value, h, rfl | rfl⟩
        · exact Or.inl ⟨'\\' :: d :: body, d :: value, rest, rfl, .escape d h⟩
        · exact Or.inr ⟨'\\' :: d :: text, d :: value, .escape d h, Or.inl rfl⟩
        · exact Or.inr ⟨'\\' :: d :: body, d :: value, .escape d h, Or.inr rfl⟩
    · rcases split_body text with ⟨body, value, rest, rfl, h⟩ | ⟨body, value, h, rfl | rfl⟩
      · exact Or.inl ⟨c :: body, c :: value, rest, rfl, .plain hq hb h⟩
      · exact Or.inr ⟨c :: text, c :: value, .plain hq hb h, Or.inl rfl⟩
      · exact Or.inr ⟨c :: body, c :: value, .plain hq hb h, Or.inr rfl⟩

/-- A character after a longest word ends the word or cannot stand there. -/
theorem endsWord_or_fault {rest : List Char} (h : ∀ c r, rest = c :: r → LexicalClass.of c ≠ .other) :
    EndsWord rest ∨ ∃ c r, rest = c :: r ∧ (c = '"' ∨ c = '\\' ∨ c = '#') := by
  cases rest with
  | nil => exact Or.inl trivial
  | cons c rest =>
    cases hc : LexicalClass.of c with
    | space => exact Or.inl (Or.inl (Or.inl hc))
    | lineBreak => exact Or.inl (Or.inl (Or.inr hc))
    | listOpen => exact Or.inl (Or.inr (Or.inl ((LexicalClass.of_eq_iff rfl c).1 hc)))
    | listClose => exact Or.inl (Or.inr (Or.inr ((LexicalClass.of_eq_iff rfl c).1 hc)))
    | quote => exact Or.inr ⟨c, rest, rfl, Or.inl ((LexicalClass.of_eq_iff rfl c).1 hc)⟩
    | backslash => exact Or.inr ⟨c, rest, rfl, Or.inr (Or.inl ((LexicalClass.of_eq_iff rfl c).1 hc))⟩
    | hash => exact Or.inr ⟨c, rest, rfl, Or.inr (Or.inr ((LexicalClass.of_eq_iff rfl c).1 hc))⟩
    | other => exact absurd hc (h c rest rfl)

/-- Every word is a lexeme. -/
theorem IsWord.exists_lexeme {word : List Char} (h : IsWord word) : ∃ kind, Lexeme word kind := by
  cases hread : Double.read? (String.ofList word) with
  | none => exact ⟨_, .symbol h hread⟩
  | some value => exact ⟨_, .number h hread⟩

/-- After a gap, a text goes on with a lexeme or is at fault. -/
theorem split_lexeme {gap : List Char} (before : List Char) (hg : Gap gap) {c : Char} (text : List Char)
    (hc : BeginsNoGap c) :
    (∃ lexeme kind rest, c :: text = lexeme ++ rest ∧ Lexeme lexeme kind ∧ (IsWord lexeme → EndsWord rest)) ∨
      ∃ error, Fault before (gap ++ c :: text) error := by
  cases hclass : LexicalClass.of c with
  | space => exact absurd (Or.inl hclass) hc.1
  | lineBreak => exact absurd (Or.inr hclass) hc.1
  | hash => exact absurd ((LexicalClass.of_eq_iff rfl c).1 hclass) hc.2
  | listOpen =>
    obtain rfl := (LexicalClass.of_eq_iff rfl c).1 hclass
    exact Or.inl ⟨['('], _, text, rfl, .listOpen, fun hw => absurd hw (not_isWord_cons (by decide) _)⟩
  | listClose =>
    obtain rfl := (LexicalClass.of_eq_iff rfl c).1 hclass
    exact Or.inl ⟨[')'], _, text, rfl, .listClose, fun hw => absurd hw (not_isWord_cons (by decide) _)⟩
  | backslash =>
    obtain rfl := (LexicalClass.of_eq_iff rfl c).1 hclass
    exact Or.inr ⟨_, .backslash hg⟩
  | quote =>
    obtain rfl := (LexicalClass.of_eq_iff rfl c).1 hclass
    rcases split_body text with ⟨body, value, rest, rfl, hb⟩ | ⟨body, value, hb, rfl | rfl⟩
    · exact Or.inl ⟨'"' :: body ++ ['"'], _, rest, by simp, .string hb,
        fun hw => absurd hw (not_isWord_cons (by decide) _)⟩
    · exact Or.inr ⟨_, .openString hg hb⟩
    · exact Or.inr ⟨_, .openEscape hg hb⟩
  | other =>
    obtain ⟨word, rest, heq, hw, hrest⟩ := split_word text hclass
    obtain ⟨kind, hl⟩ := hw.exists_lexeme
    rcases endsWord_or_fault hrest with hends | ⟨d, r, rfl, hd⟩
    · exact Or.inl ⟨word, kind, rest, heq, hl, fun _ => hends⟩
    · rw [heq]
      exact Or.inr ⟨_, .afterWord hg hw hd⟩

/-- **Every text has a layout or a fault.** -/
theorem layout_or_fault (before text : List Char) :
    (∃ gap pieces tokens, text = join gap pieces ∧ Layout before gap pieces tokens) ∨
      ∃ error, Fault before text error := by
  induction hn : text.length using Nat.strong_induction_on generalizing before text with
  | _ n ih =>
    rcases gapFirst text with h | ⟨gap, c, rest, rfl, hg, hc⟩
    · exact Or.inl ⟨text, [], [], (join_nil text).symm, .last h⟩
    rcases split_lexeme before hg rest hc with ⟨lexeme, kind, rest', heq, hl, hends⟩ | h
    · rw [heq] at hn ⊢
      obtain ⟨d, lexeme', rfl, _⟩ := hl.head
      simp only [List.length_append, List.length_cons] at hn
      rcases ih rest'.length (by omega) (before ++ gap ++ d :: lexeme') rest' rfl with
        ⟨gap', pieces, tokens, rfl, hlay⟩ | ⟨error, hf⟩
      · exact Or.inl ⟨gap, ⟨d :: lexeme', gap'⟩ :: pieces, _, (join_cons gap ⟨d :: lexeme', gap'⟩ pieces).symm,
          .token hg hl (fun hw => hlay.apart_iff.2 (hends hw)) hlay⟩
      · exact Or.inr ⟨error, .later hg hl hends hf⟩
    · exact Or.inr h

/-! ## The outcome of a scan -/

/-- The tokens of a text are those of its layout. -/
theorem scanChars_eq_ok_iff {text : List Char} {tokens : List Token} :
    Token.scanChars text = .ok tokens ↔ ∃ gap pieces, text = join gap pieces ∧ Layout [] gap pieces tokens := by
  constructor
  · intro h
    rcases layout_or_fault [] text with ⟨gap, pieces, tokens', rfl, hlay⟩ | ⟨error, hf⟩
    · have hrun : Token.scanChars (join gap pieces) = .ok tokens' := hlay.run_eq []
      obtain rfl := Except.ok.inj (hrun.symm.trans h)
      exact ⟨gap, pieces, rfl, hlay⟩
    · have hrun : Token.scanChars text = .error error := hf.run_eq []
      cases hrun.symm.trans h
  · rintro ⟨gap, pieces, rfl, hlay⟩
    exact hlay.run_eq []

end SExprLang.Lexical
