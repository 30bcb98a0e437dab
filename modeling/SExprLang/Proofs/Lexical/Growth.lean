import SExprLang.Proofs.Lexical.Exact

/-!
# Reading on

What a longer text makes of the tokens of its beginning. A scan never takes back a token (`step_grows`, `steps_grows`): if
it reads on from the end of a text, all tokens stay but for a bare word that the text ends with, and this is followed up
by some token at least. A line feed at the end of the text leaves no such word, and all is as if the next line were read
with the tokens at hand (`run_lineFeed`).
-/

namespace SExprLang.Scan

variable {s s' s'' : Scan}

/-! ## One text after another -/

theorem steps_append (s : Scan) (u v : List Char) : s.steps (u ++ v) = (s.steps u).bind (steps · v) := by
  simp only [steps, List.foldlM_append]
  rfl

theorem run_append (s : Scan) (u v : List Char) : s.run (u ++ v) = (s.steps u).bind (run · v) := by
  unfold run
  rw [steps_append]
  cases s.steps u <;> rfl

/-- A reading fails at a misplaced character, or where the text ends in a string. -/
theorem run_eq_error {text : List Char} {error : LexError} (h : s.run text = .error error) :
    (s.steps text = .error error ∧ ∃ c position, error = .misplacedChar c position) ∨
      ∃ s', s.steps text = .ok s' ∧ s'.finish = .error error := by
  unfold run at h
  cases hs : s.steps text with
  | ok s' =>
    rw [hs] at h
    exact Or.inr ⟨s', rfl, h⟩
  | error error' =>
    rw [hs] at h
    obtain rfl : error' = error := Except.error.inj h
    obtain ⟨_, c, _, s', _, _, _, hc⟩ := steps_error hs
    exact Or.inl ⟨rfl, c, _, step_error hc⟩

theorem run_eq_ok {text : List Char} {tokens : List Token} (h : s.run text = .ok tokens) :
    ∃ s', s.steps text = .ok s' ∧ s'.finish = .ok tokens := by
  unfold run at h
  cases hs : s.steps text with
  | ok s' =>
    rw [hs] at h
    exact ⟨s', rfl, h⟩
  | error error =>
    rw [hs] at h
    cases h

/-! ## Tokens stay -/

/-- Whether a token has been begun and not ended. -/
def Mode.InToken : Mode → Prop
  | between | comment => False
  | word .. | quoted .. | escape .. => True

/-- The later scan has new tokens besides those of the earlier one, and if there are none, then a token that the earlier
one has begun is still begun. -/
def Grows (s s' : Scan) : Prop :=
  ∃ new, s'.tokens = new ++ s.tokens ∧ (s.mode.InToken → new = [] → s'.mode.InToken)

theorem Grows.refl (s : Scan) : Grows s s := ⟨[], rfl, fun h _ => h⟩

theorem Grows.trans (h : Grows s s') (h' : Grows s' s'') : Grows s s'' := by
  obtain ⟨new, htokens, hmode⟩ := h
  obtain ⟨new', htokens', hmode'⟩ := h'
  refine ⟨new' ++ new, by rw [htokens', htokens, List.append_assoc], ?_⟩
  intro hin hnone
  obtain ⟨rfl, rfl⟩ := List.append_eq_nil_iff.1 hnone
  exact hmode' (hmode hin rfl) rfl

theorem step_grows {c : Char} (h : s.step c = .ok s') : Grows s s' := by
  obtain ⟨cursor, mode, tokens⟩ := s
  unfold step at h
  cases ht : transition cursor mode tokens c with
  | error error => rw [ht] at h; cases h
  | ok next =>
    rw [ht] at h
    obtain rfl := Except.ok.inj h
    -- No character but a parenthesis after a word makes two tokens at once.
    have hnew : (∃ new, next.2 = new ++ tokens ∧ (mode.InToken → new = [] → next.1.InToken)) := by
      unfold transition at ht
      cases mode with
      | between =>
        simp only at ht
        split at ht <;> cases ht <;> first | exact ⟨[], rfl, False.elim⟩ | exact ⟨[_], rfl, False.elim⟩
      | word first text =>
        simp only at ht
        split at ht <;> cases ht
        · exact ⟨[_], rfl, by simp⟩
        · exact ⟨[_], rfl, by simp⟩
        · exact ⟨[_, _], rfl, by simp⟩
        · exact ⟨[_, _], rfl, by simp⟩
        · exact ⟨[], rfl, fun _ _ => trivial⟩
      | quoted first raw text =>
        simp only at ht
        split at ht <;> cases ht
        · exact ⟨[], rfl, fun _ _ => trivial⟩
        · exact ⟨[_], rfl, by simp⟩
        · exact ⟨[], rfl, fun _ _ => trivial⟩
      | escape first raw text =>
        cases ht
        exact ⟨[], rfl, fun _ _ => trivial⟩
      | comment =>
        simp only at ht
        split at ht <;> cases ht <;> exact ⟨[], rfl, False.elim⟩
    exact hnew

theorem steps_grows {text : List Char} (h : s.steps text = .ok s') : Grows s s' := by
  induction text generalizing s with
  | nil =>
    obtain rfl := Except.ok.inj h
    exact .refl s
  | cons c text ih =>
    simp only [steps, List.foldlM_cons] at h
    cases hc : s.step c with
    | error error => rw [hc] at h; cases h
    | ok s₁ =>
      rw [hc] at h
      exact (step_grows hc).trans (ih h)

/-! ## Longer texts -/

/-- The tokens at the end of a text are those so far and the word that the text ends with, if there is one. -/
theorem finish_eq_ok {tokens : List Token} (h : s.finish = .ok tokens) :
    ∃ last : Option Token, tokens = s.tokens.reverse ++ last.toList ∧ (s.mode.InToken ↔ last.isSome) ∧
      ∀ token ∈ last, token.kind ≠ .listClose := by
  obtain ⟨cursor, mode, earlier⟩ := s
  cases mode with
  | between =>
    obtain rfl := Except.ok.inj h
    exact ⟨none, by simp, by simp [Mode.InToken], by simp⟩
  | comment =>
    obtain rfl := Except.ok.inj h
    exact ⟨none, by simp, by simp [Mode.InToken], by simp⟩
  | word first text =>
    obtain rfl := Except.ok.inj h
    refine ⟨some (wordToken first text), by simp, by simp [Mode.InToken], ?_⟩
    rintro token ⟨⟩
    simp only [wordToken, TokenKind.ofWord]
    split <;> simp
  | quoted first raw text => cases h
  | escape first raw text => cases h

/-- What a scan has in the end begins with the tokens that it had before, and goes on if one more was begun. -/
theorem Grows.finish {tokens : List Token} (h : Grows s s') (hfinish : s'.finish = .ok tokens) :
    ∃ more, tokens = s.tokens.reverse ++ more ∧ (s.mode.InToken → more ≠ []) := by
  obtain ⟨new, hnew, hmode⟩ := h
  obtain ⟨last, rfl, hlast, _⟩ := finish_eq_ok hfinish
  refine ⟨new.reverse ++ last.toList, by simp [hnew], ?_⟩
  intro hin hnone
  obtain ⟨hrev, htoList⟩ := List.append_eq_nil_iff.1 hnone
  have hsome : last.isSome := hlast.1 (hmode hin (List.reverse_eq_nil_iff.1 hrev))
  rw [Option.toList_eq_nil_iff.1 htoList] at hsome
  cases hsome

/-- **A token of a text is followed up in every longer text with tokens.** What goes before it stays, and so does the token
itself if it is a closing parenthesis; only a word may become another one. -/
theorem exists_token_of_longer {text more : List Char} {us rest tokens : List Token} {token : Token}
    (h : Token.scanChars text = .ok (us ++ token :: rest)) (h' : Token.scanChars (text ++ more) = .ok tokens) :
    ∃ token' rest', tokens = us ++ token' :: rest' ∧ (token.kind = .listClose → token' = token) := by
  obtain ⟨s, hs, hfinish⟩ := run_eq_ok h
  obtain ⟨s', hs', hfinish'⟩ := run_eq_ok h'
  rw [steps_append, hs] at hs'
  obtain ⟨last, hlast, hin, hkind⟩ := finish_eq_ok hfinish
  obtain ⟨added, rfl, hadded⟩ := (steps_grows hs').finish hfinish'
  -- either the token is the word at the end of the shorter text, or the scan has it already there
  have hword : s.tokens.reverse = us → last = some token →
      ∃ token' rest', s.tokens.reverse ++ added = us ++ token' :: rest' ∧ (token.kind = .listClose → token' = token) := by
    rintro rfl rfl
    obtain ⟨token', rest', rfl⟩ := List.exists_cons_of_ne_nil (hadded (hin.2 rfl))
    exact ⟨token', rest', rfl, fun hclose => absurd hclose (hkind token rfl)⟩
  rcases List.append_eq_append_iff.1 hlast with ⟨a, ha, ha'⟩ | ⟨a, rfl, ha'⟩
  · cases a with
    | nil => exact hword (by simpa using ha) (by cases last <;> simp_all)
    | cons b a =>
      obtain ⟨rfl, _⟩ := List.cons.inj ha'
      exact ⟨token, a ++ added, by rw [ha]; simp, fun _ => rfl⟩
  · cases last with
    | none => simp at ha'
    | some word =>
      obtain ⟨rfl, hone⟩ | ⟨_, hnone⟩ := List.singleton_eq_append_iff.1 ha'
      · exact hword (List.append_nil _).symm (congrArg some (List.cons.inj hone).1.symm)
      · cases hnone

/-- **After a line feed, the tokens of the text before are at hand.** -/
theorem run_lineFeed {tokens : List Token} (h : s.finish = .ok tokens) (k : List Char) :
    s.run ('\n' :: k) = run ⟨s.cursor.advance '\n', .between, tokens.reverse⟩ k := by
  obtain ⟨cursor, mode, earlier⟩ := s
  cases mode with
  | quoted first raw text => cases h
  | escape first raw text => cases h
  | _ =>
    obtain rfl := Except.ok.inj h
    rw [List.reverse_reverse]
    exact run_of_transition rfl

end SExprLang.Scan
