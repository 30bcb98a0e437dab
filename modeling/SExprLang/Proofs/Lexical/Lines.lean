import SExprLang.Proofs.Lexical.Displacement
import SExprLang.Proofs.Lexical.Growth

/-!
# Text after a line feed

A line feed ends whatever a text with tokens may end in, so the text after it is read as if it stood alone: with the same
tokens, after those that are there already (`run_earlier`), and further down by as many lines as there are breaks before
it (`Moves.down`). `scan_lineFeed` says what becomes of the two texts together.
-/

namespace SExprLang

open Lexical

/-! ## Line breaks -/

namespace Position

/-- The number of line breaks in a text, a carriage return with the line feed after it counted once. -/
def lineBreaks : List Char → Nat
  | '\r' :: '\n' :: rest => lineBreaks rest + 1
  | c :: rest => lineBreaks rest + if Text.isLineBreak c then 1 else 0
  | [] => 0

/-- What stands before a text matters to its line feeds only if it is a carriage return right before one. -/
theorem loneLineFeeds_congr {before before' : Option Char} {u : List Char}
    (h : u.head? = some '\n' → before ≠ some '\r' ∧ before' ≠ some '\r') :
    loneLineFeeds before u = loneLineFeeds before' u := by
  cases u with
  | nil => rfl
  | cons c u =>
    by_cases hc : c = '\n'
    · obtain ⟨hb, hb'⟩ := h (congrArg some hc)
      simp [loneLineFeeds, hb, hb']
    · simp [loneLineFeeds, hc]

theorem lineBreaks_eq (u : List Char) :
    lineBreaks u = u.countP (fun c => c = '\r' ∨ c = '\u2028' ∨ c = '\u2029') + loneLineFeeds none u := by
  fun_induction lineBreaks u with
  | case1 rest ih =>
    have hrest : loneLineFeeds (some '\n') rest = loneLineFeeds none rest := loneLineFeeds_congr (by simp)
    simp [loneLineFeeds, ih, hrest]
    omega
  | case2 c rest hpair ih =>
    have hrest : loneLineFeeds (some c) rest = loneLineFeeds none rest := by
      refine loneLineFeeds_congr fun hhead => ⟨?_, by simp⟩
      rintro ⟨⟩
      obtain ⟨rest', rfl⟩ := List.head?_eq_some_iff.1 hhead
      exact hpair rest' rfl rfl
    rw [ih, List.countP_cons, loneLineFeeds, hrest]
    by_cases hfeed : c = '\n'
    · subst hfeed
      simp [Text.isLineBreak]
      omega
    · simp [Text.isLineBreak, hfeed, or_assoc]
      omega
  | case3 => rfl

/-- Every line break starts a line. -/
theorem line_after (u : List Char) : (after u).line = 1 + lineBreaks u := by
  rw [lineBreaks_eq]
  rfl

/-- The position so many lines further down. -/
def down (lines : Nat) (p : Position) : Position := ⟨p.line + lines, p.column⟩

end Position

/-- The token so many lines further down. -/
def Token.down (lines : Nat) (t : Token) : Token := { t with position := t.position.down lines }

/-- The error so many lines further down. -/
def LexError.down (lines : Nat) : LexError → LexError
  | misplacedChar c position => misplacedChar c (position.down lines)
  | unfinishedString => unfinishedString

/-- Positions that are some lines apart stay so. -/
theorem Moves.down (lines : Nat) : Moves fun p q => p = q.down lines := by
  rintro ⟨offset, p, flag⟩ ⟨offset', q, flag'⟩ ⟨hposition, hflag⟩ c
  simp only at hposition hflag
  subst hposition hflag
  unfold Cursor.positionAfter
  split
  · split <;> simp [Position.down]; omega
  all_goals simp [Position.down] <;> omega

theorem Token.Alike.eq_down {lines : Nat} {t t' : Token} (h : t.Alike (fun p q => p = q.down lines) t') :
    t = t'.down lines := by
  obtain ⟨kind, lexeme, position⟩ := t
  obtain ⟨hkind, hlexeme, hposition⟩ := h
  simp only at hkind hlexeme hposition
  rw [hkind, hlexeme, hposition]
  rfl

namespace Scan

/-! ## Tokens that are there already -/

variable {cursor : Cursor} {mode : Mode}

/-- A character does the same whatever tokens have gone before. -/
theorem transition_earlier (new earlier : List Token) (c : Char) :
    transition cursor mode (new ++ earlier) c =
      (transition cursor mode new c).map fun (mode, tokens) => (mode, tokens ++ earlier) := by
  unfold transition
  cases mode with
  | escape first raw text => rfl
  | _ =>
    simp only
    split <;> rfl

theorem run_earlier (new earlier : List Token) (text : List Char) :
    run ⟨cursor, mode, new ++ earlier⟩ text = (run ⟨cursor, mode, new⟩ text).map (earlier.reverse ++ ·) := by
  induction text generalizing cursor mode new with
  | nil => cases mode <;> simp [finish, Except.map]
  | cons c text ih =>
    cases ht : transition cursor mode new c with
    | error error =>
      rw [run_of_transition_error ht, run_of_transition_error (by rw [transition_earlier, ht]; rfl)]
      rfl
    | ok next =>
      rw [run_of_transition ht, run_of_transition (by rw [transition_earlier, ht]; rfl), ih]

/-- Reading moves the cursor past what is read. -/
theorem cursor_of_steps {s s' : Scan} {text : List Char} (h : s.steps text = .ok s') :
    s'.cursor = s.cursor.past text := by
  induction text generalizing s with
  | nil =>
    obtain rfl := Except.ok.inj h
    rfl
  | cons c text ih =>
    simp only [steps, List.foldlM_cons] at h
    cases hc : s.step c with
    | error error => rw [hc] at h; cases h
    | ok s₁ =>
      rw [hc] at h
      rw [ih h, cursor_of_step hc, Cursor.past_cons]

/-- What two scans have that are some lines apart. -/
theorem BothRead.down {lines : Nat} {r r' : Except LexError (List Token)}
    (h : BothRead (fun p q => p = q.down lines) (List.Forall₂ (Token.Alike fun p q => p = q.down lines)) r r') :
    r = (r'.map (·.map (Token.down lines))).mapError (LexError.down lines) := by
  cases h with
  | ok htokens =>
    have hdown := List.forall₂_map_right_iff.2 (htokens.imp fun t t' ht => ht.eq_down)
    exact congrArg Except.ok (List.forall₂_eq_eq_eq ▸ hdown)
  | misplacedChar c hp => rw [hp]; rfl
  | unfinishedString => rfl

end Scan

/-! ## The text after a line feed -/

theorem scan_append {text : String} {s : Scan} (h : Scan.start.steps text.toList = .ok s) (more : String) :
    Token.scan (text ++ more) = s.run more.toList := by
  rw [Token.scan, String.toList_append, Scan.scanChars_eq_run, Scan.run_append, h]
  rfl

/-- After a line feed the next text is read with the tokens at hand. -/
theorem scan_nextLine {text : String} {ts : List Token} (h : Token.scan text = .ok ts) (next : String) :
    Token.scan (text ++ "\n" ++ next) =
      Scan.run ⟨Cursor.start.past (text.toList ++ ['\n']), .between, ts.reverse⟩ next.toList := by
  obtain ⟨s, hsteps, hfinish⟩ := Scan.run_eq_ok h
  have hcursor : s.cursor.advance '\n' = Cursor.start.past (text.toList ++ ['\n']) := by
    rw [Scan.cursor_of_steps hsteps, Cursor.past_append]
    rfl
  rw [String.append_assoc, scan_append hsteps, String.toList_append, ← hcursor]
  exact Scan.run_lineFeed hfinish next.toList

/-- A text that starts a line is read as it is alone, further down. -/
theorem run_below (u text : List Char) :
    Scan.run ⟨Cursor.start.past (u ++ ['\n']), .between, []⟩ text =
      ((Token.scanChars text).map (·.map (Token.down (Position.lineBreaks (u ++ ['\n']))))).mapError
        (LexError.down (Position.lineBreaks (u ++ ['\n']))) := by
  have hplace : Position.after (u ++ ['\n']) = (⟨1, 1⟩ : Position).down (Position.lineBreaks (u ++ ['\n'])) :=
    Position.ext (Position.line_after _) (Position.column_after_break u rfl)
  have halike : Scan.Alike (fun p q => p = q.down (Position.lineBreaks (u ++ ['\n'])))
      ⟨Cursor.start.past (u ++ ['\n']), .between, []⟩ .start := by
    rw [Cursor.start_past]
    exact ⟨⟨hplace, by simp [Scan.start, Cursor.start]⟩, .between, .nil⟩
  exact (Scan.run_alike (.down _) halike text).down

/-- **Scanning goes line by line.** If a text has tokens, then what follows it after a line feed has the tokens or the
error that it has alone, so many lines further down as there are breaks up to it. -/
theorem scan_lineFeed (a b : String) (ts : List Token) (h : Token.scan a = .ok ts) :
    let d := Position.lineBreaks (a ++ "\n").toList
    (∀ us, Token.scan b = .ok us → Token.scan (a ++ "\n" ++ b) = .ok (ts ++ us.map (Token.down d))) ∧
    (∀ c p, Token.scan b = .error (.misplacedChar c p) →
      Token.scan (a ++ "\n" ++ b) = .error (.misplacedChar c (p.down d))) ∧
    (Token.scan b = .error .unfinishedString → Token.scan (a ++ "\n" ++ b) = .error .unfinishedString) ∧
    d = Position.lineBreaks a.toList + if a.toList.getLast? = some '\r' then 0 else 1 := by
  intro d
  have hd : d = Position.lineBreaks (a.toList ++ ['\n']) := congrArg Position.lineBreaks (String.toList_append)
  have hscan : Token.scan (a ++ "\n" ++ b) =
      (((Token.scan b).map (·.map (Token.down d))).mapError (LexError.down d)).map (ts ++ ·) := by
    have hearlier : Scan.run ⟨Cursor.start.past (a.toList ++ ['\n']), .between, [] ++ ts.reverse⟩ b.toList = _ :=
      Scan.run_earlier [] ts.reverse b.toList
    rw [List.nil_append, List.reverse_reverse, run_below] at hearlier
    rw [scan_nextLine h, hearlier, hd]
    rfl
  refine ⟨?_, ?_, ?_, ?_⟩
  · intro us hb
    rw [hscan, hb]
    rfl
  · intro c p hb
    rw [hscan, hb]
    rfl
  · intro hb
    rw [hscan, hb]
    rfl
  · have hline := Position.line_after_lineFeed a.toList
    rw [Position.line_after, Position.line_after] at hline
    omega

/-- A comment that ends with a carriage return, to which the line feed between the texts belongs. -/
theorem scan_lineFeed_after_return :
    Token.scan "x # y\r" = .ok [⟨.symbol "x", "x", ⟨1, 1⟩⟩] ∧
    Token.scan ("x # y\r" ++ "\n" ++ "\n z") = .ok [⟨.symbol "x", "x", ⟨1, 1⟩⟩, ⟨.symbol "z", "z", ⟨3, 2⟩⟩] := by
  have ha : Token.scan "x # y\r" = .ok [⟨.symbol "x", "x", ⟨1, 1⟩⟩] := by decide
  have hb : Token.scan "\n z" = .ok [⟨.symbol "z", "z", ⟨2, 2⟩⟩] := by decide
  exact ⟨ha, (scan_lineFeed "x # y\r" "\n z" _ ha).1 _ hb⟩

end SExprLang
