import SExprLang.Proofs.Lexical.Lines
import SExprLang.Proofs.Lexical.Words

/-!
# Scanning with registers

A machine scans a text that it addresses by index: it keeps the indices of the current character and of the first character
of the token it is inside of, cuts the text of a string out of the source when the string ends, and counts lines and
columns in words. `Registers.round` is one turn of its loop, which has no outcome if an index is out of range or an operation
overflows and that stops the machine.

On a text of at most `2 ^ 61 - 1` characters the registers follow the scan turn by turn (`Registers.Follows.round`). So every
turn goes through, the loop ends with the tokens of the text (`Registers.Follows.returns`), and in whatever state it is on the
way, its indices and counts are in range (`scan_in_range`).
-/

namespace SExprLang

open Lexical

/-! ## The machine -/

/-- The characters of a text from one index to another, both included, if the text has them. -/
def slice? (source : List Char) (first last : Nat) : Option (List Char) :=
  if first ≤ last + 1 ∧ last < source.length then some ((source.take (last + 1)).drop first) else none

namespace Registers

/-- What the machine is inside of. -/
inductive State where
  | outside
  | bare
  | quoted
  | escaped
  | comment
deriving DecidableEq

end Registers

/-- The state of the machine. -/
structure Registers where
  cursor : WordCursor
  state : Registers.State
  /-- The index of the first character of the token that was begun last. -/
  start : UInt64
  /-- The position of that character. -/
  startPosition : Position
  /-- What the token in progress denotes so far, last character first. -/
  text : List Char
  /-- The tokens so far, last first. -/
  tokens : List Token
deriving DecidableEq

namespace Registers

/-- Before the first character. -/
def initial : Registers := ⟨.start, .outside, 0, ⟨1, 1⟩, [], []⟩

/-- The position of the current character. -/
def position (r : Registers) : Position := r.cursor.toCursor.position

/-- Goes on inside of something else. -/
def enter (r : Registers) (state : State) : Registers := { r with state := state }

/-- Begins a token at the current character. -/
def beginToken (r : Registers) : Registers :=
  { r with start := r.cursor.current, startPosition := r.position, text := [] }

/-- Adds a character to what the token denotes. -/
def push (r : Registers) (c : Char) : Registers := { r with text := c :: r.text }

/-- Adds the parenthesis `c`. -/
def addDelimiter (r : Registers) (kind : TokenKind) (c : Char) : Registers :=
  { r with tokens := ⟨kind, String.singleton c, r.position⟩ :: r.tokens }

/-- Adds the bare word that ends before the current character. -/
def finishBare (r : Registers) : Registers :=
  let word := String.ofList r.text.reverse
  { r with text := [], tokens := ⟨.ofWord word, word, r.startPosition⟩ :: r.tokens }

/-- Adds the string that ends with the current character. Its text is cut out of the source. -/
def finishString (source : List Char) (r : Registers) : Option Registers := do
  let lexeme ← slice? source r.start.toNat r.cursor.current.toNat
  let value := String.ofList r.text.reverse
  return { r with text := [], tokens := ⟨.string value, String.ofList lexeme, r.startPosition⟩ :: r.tokens }

/-- Reads the current character, which is `c`. -/
def step (source : List Char) (r : Registers) (c : Char) : Option (Except LexError Registers) :=
  match r.state with
  | .outside =>
    match LexicalClass.of c with
    | .space | .lineBreak => some (.ok r)
    | .hash => some (.ok (r.enter .comment))
    | .listOpen => some (.ok (r.addDelimiter .listOpen c))
    | .listClose => some (.ok (r.addDelimiter .listClose c))
    | .quote => some (.ok (r.beginToken.enter .quoted))
    | .backslash => some (.error (.misplacedChar c r.position))
    | .other => some (.ok ((r.beginToken.push c).enter .bare))
  | .bare =>
    match LexicalClass.of c with
    | .space | .lineBreak => some (.ok (r.finishBare.enter .outside))
    | .listOpen => some (.ok ((r.finishBare.addDelimiter .listOpen c).enter .outside))
    | .listClose => some (.ok ((r.finishBare.addDelimiter .listClose c).enter .outside))
    | .quote | .backslash | .hash => some (.error (.misplacedChar c r.position))
    | .other => some (.ok (r.push c))
  | .quoted =>
    match LexicalClass.of c with
    | .backslash => some (.ok (r.enter .escaped))
    | .quote => (r.finishString source).map fun r => .ok (r.enter .outside)
    | _ => some (.ok (r.push c))
  | .escaped => some (.ok ((r.push c).enter .quoted))
  | .comment =>
    match LexicalClass.of c with
    | .lineBreak => some (.ok (r.enter .outside))
    | _ => some (.ok r)

/-- One turn of the loop: reads the current character and moves past it. -/
def round (rule : Overflow) (source : List Char) (r : Registers) : Option (Except LexError Registers) := do
  let c ← source[r.cursor.current.toNat]?
  match ← r.step source c with
  | .error error => return .error error
  | .ok next => return .ok { next with cursor := ← next.cursor.advance rule c }

/-- The tokens at the end of the text. -/
def finish (r : Registers) : Except LexError (List Token) :=
  match r.state with
  | .outside | .comment => .ok r.tokens.reverse
  | .bare => .ok r.finishBare.tokens.reverse
  | .quoted | .escaped => .error .unfinishedString

/-- The outcome of the loop from a state on. There is none if a turn has none. -/
inductive Returns (rule : Overflow) (source : List Char) : Registers → Except LexError (List Token) → Prop
  | finish {r : Registers} : ¬ r.cursor.current.toNat < source.length → Returns rule source r r.finish
  | fail {r : Registers} {error : LexError} : r.cursor.current.toNat < source.length →
      r.round rule source = some (.error error) → Returns rule source r (.error error)
  | next {r r' : Registers} {outcome : Except LexError (List Token)} : r.cursor.current.toNat < source.length →
      r.round rule source = some (.ok r') → Returns rule source r' outcome → Returns rule source r outcome

/-- The states that the machine gets to on a text. -/
inductive Reached (rule : Overflow) (source : List Char) : Registers → Prop
  | initial : Reached rule source initial
  | round {r r' : Registers} : Reached rule source r → r.cursor.current.toNat < source.length →
      r.round rule source = some (.ok r') → Reached rule source r'

/-- The loop has one outcome at most. -/
theorem Returns.unique {rule : Overflow} {source : List Char} {r : Registers} {outcome outcome' : Except LexError (List Token)}
    (h : Returns rule source r outcome) (h' : Returns rule source r outcome') : outcome = outcome' := by
  induction h with
  | finish hend =>
    cases h' with
    | finish _ => rfl
    | fail hmore _ => exact absurd hmore hend
    | next hmore _ _ => exact absurd hmore hend
  | fail hmore hround =>
    cases h' with
    | finish hend => exact absurd hmore hend
    | fail _ hround' => simpa using hround.symm.trans hround'
    | next _ hround' _ => simp [hround] at hround'
  | next hmore hround _ ih =>
    cases h' with
    | finish hend => exact absurd hmore hend
    | fail _ hround' => simp [hround] at hround'
    | next _ hround' h' =>
      simp only [hround, Option.some.injEq, Except.ok.injEq] at hround'
      exact ih (hround' ▸ h')

/-! ## What the registers hold -/

/-- The machine was between tokens when it had read `before`, and has then begun a token. -/
def Opened (r : Registers) (before : List Char) : Prop :=
  r.start.toNat = before.length ∧ ∃ s, Scan.start.steps before = .ok s ∧ s.mode = .between

/-- After the text `u` the machine is inside of a string, of which `raw` is read, last character first. `pending` is a
backslash whose character is not read yet, if there is one. -/
structure InString (r : Registers) (u : List Char) (first : Cursor) (raw text pending : List Char) : Prop where
  string : ∃ before body, r.Opened before ∧ u = before ++ raw.reverse ∧ raw.reverse = '"' :: (body ++ pending) ∧
    Body body text.reverse
  text : r.text = text
  position : r.startPosition = first.position

/-- The registers hold what the scan has collected in the mode it is in after the text `u`. -/
def Holds (r : Registers) (u : List Char) : Scan.Mode → Prop
  | .between => r.state = .outside
  | .word first text => r.state = .bare ∧ r.startPosition = first.position ∧ r.text = text
  | .quoted first raw text => r.state = .quoted ∧ r.InString u first raw text []
  | .escape first raw text => r.state = .escaped ∧ r.InString u first raw text ['\\']
  | .comment => r.state = .comment

/-- The registers are those of a scan that has read the text `u`. -/
structure Follows (r : Registers) (u : List Char) (s : Scan) : Prop where
  steps : Scan.start.steps u = .ok s
  cursor : r.cursor.toCursor = Cursor.start.past u
  tokens : r.tokens = s.tokens
  start_le : r.start.toNat ≤ u.length
  mode : r.Holds u s.mode

/-! ## Strings -/

/-- The insides of strings can be put together. -/
theorem body_append {body body' value value' : List Char} (h : Body body value) (h' : Body body' value') :
    Body (body ++ body') (value ++ value') := by
  induction h with
  | nil => exact h'
  | escape c _ ih => exact .escape c ih
  | plain hquote hbackslash _ ih => exact .plain hquote hbackslash ih

theorem slice?_append (before mid : List Char) (c : Char) (rest : List Char) :
    slice? (before ++ mid ++ c :: rest) before.length (before ++ mid).length = some (mid ++ [c]) := by
  have htake : (before ++ mid ++ c :: rest).take ((before ++ mid).length + 1) = before ++ (mid ++ [c]) := by
    rw [List.take_length_add_append]
    simp
  unfold slice?
  rw [if_pos (by simp; omega), htake, List.drop_left]

section

variable {r : Registers} {u raw text : List Char} {first : Cursor} {c : Char}

/-- A quote between tokens begins a string. -/
theorem inString_beginToken {cursor : Cursor} {tokens : List Token} (hcursor : r.cursor.toCursor = cursor)
    (hcurrent : r.cursor.current.toNat = u.length) (hsteps : Scan.start.steps u = .ok ⟨cursor, .between, tokens⟩) :
    (r.beginToken.enter .quoted).InString (u ++ ['"']) cursor ['"'] [] [] where
  string := ⟨u, [], ⟨hcurrent, _, hsteps, rfl⟩, rfl, rfl, .nil⟩
  text := rfl
  position := congrArg Cursor.position hcursor

/-- A character of a string is added to it. -/
theorem InString.plain (h : r.InString u first raw text []) (hquote : c ≠ '"') (hbackslash : c ≠ '\\') :
    (r.push c).InString (u ++ [c]) first (c :: raw) (c :: text) [] where
  string := by
    obtain ⟨before, body, hopened, rfl, hraw, hbody⟩ := h.string
    refine ⟨before, body ++ [c], hopened, by simp, by simp [hraw], ?_⟩
    rw [List.reverse_cons]
    exact body_append hbody (.plain hquote hbackslash .nil)
  text := congrArg (c :: ·) h.text
  position := h.position

theorem InString.backslash (h : r.InString u first raw text []) :
    (r.enter .escaped).InString (u ++ ['\\']) first ('\\' :: raw) text ['\\'] where
  string := by
    obtain ⟨before, body, hopened, rfl, hraw, hbody⟩ := h.string
    exact ⟨before, body, hopened, by simp, by simp [hraw], hbody⟩
  text := h.text
  position := h.position

/-- A character after a backslash is added whatever it is. -/
theorem InString.escape (h : r.InString u first raw text ['\\']) :
    ((r.push c).enter .quoted).InString (u ++ [c]) first (c :: raw) (c :: text) [] where
  string := by
    obtain ⟨before, body, hopened, rfl, hraw, hbody⟩ := h.string
    refine ⟨before, body ++ ['\\', c], hopened, by simp, by simp [hraw], ?_⟩
    rw [List.reverse_cons]
    exact body_append hbody (.escape c .nil)
  text := congrArg (c :: ·) h.text
  position := h.position

/-- **What is cut out of the source at the closing quote is the string as it is written.** -/
theorem InString.slice?_eq (h : r.InString u first raw text []) (hcurrent : r.cursor.current.toNat = u.length)
    (c : Char) (rest : List Char) :
    slice? (u ++ c :: rest) r.start.toNat r.cursor.current.toNat = some (c :: raw).reverse := by
  obtain ⟨before, body, ⟨hstart, _⟩, rfl, _, _⟩ := h.string
  rw [hstart, hcurrent, slice?_append, List.reverse_cons]

/-- The machine adds the string that the scan adds. -/
theorem InString.finishString_eq (h : r.InString u first raw text []) (hcurrent : r.cursor.current.toNat = u.length)
    (c : Char) (rest : List Char) :
    r.finishString (u ++ c :: rest) =
      some { r with text := [], tokens := Scan.stringToken first (c :: raw) text :: r.tokens } := by
  simp [finishString, h.slice?_eq hcurrent, h.text, h.position, Scan.stringToken]

end

/-! ## Turns -/

/-- Nothing that is held depends on the cursor. -/
theorem Holds.move {r : Registers} {u : List Char} {mode : Scan.Mode} (h : r.Holds u mode) (w : WordCursor) :
    { r with cursor := w }.Holds u mode := by
  cases mode with
  | quoted first raw text => exact ⟨h.1, h.2.string, h.2.text, h.2.position⟩
  | escape first raw text => exact ⟨h.1, h.2.string, h.2.text, h.2.position⟩
  | _ => exact h

/-- The machine adds the parenthesis that the scan adds. -/
theorem addDelimiter_tokens {r : Registers} {cursor : Cursor} {tokens : List Token} (hposition : r.position = cursor.position)
    (htokens : r.tokens = tokens) (kind : TokenKind) (c : Char) :
    (r.addDelimiter kind c).tokens = Scan.delimiter cursor kind c :: tokens := by
  rw [addDelimiter, hposition, htokens, Scan.delimiter]

theorem finishBare_tokens {r : Registers} {first : Cursor} {text : List Char} {tokens : List Token}
    (hfirst : r.startPosition = first.position) (htext : r.text = text) (htokens : r.tokens = tokens) :
    r.finishBare.tokens = Scan.wordToken first text :: tokens := by
  rw [finishBare, hfirst, htext, htokens, Scan.wordToken]

/-- What the machine makes of a character is what the scan makes of it, but that the cursor has not moved yet. -/
inductive Answers (r : Registers) (u : List Char) (c : Char) :
    Except LexError (Scan.Mode × List Token) → Option (Except LexError Registers) → Prop
  | ok {mode : Scan.Mode} {tokens : List Token} {next : Registers} : next.cursor = r.cursor → next.tokens = tokens →
      next.start.toNat ≤ u.length → next.Holds (u ++ [c]) mode → Answers r u c (.ok (mode, tokens)) (some (.ok next))
  | error (error : LexError) : Answers r u c (.error error) (some (.error error))

namespace Follows

variable {r : Registers} {u : List Char} {s : Scan}

theorem cursor_eq (h : r.Follows u s) : r.cursor.toCursor = s.cursor :=
  h.cursor.trans (Scan.cursor_of_steps h.steps).symm

theorem place (h : r.Follows u s) : r.cursor.current.toNat = u.length ∧ r.position = Position.after u := by
  have hplace := h.cursor.trans (Cursor.start_past u)
  exact ⟨congrArg Cursor.offset hplace, congrArg Cursor.position hplace⟩

theorem step (h : r.Follows u s) (c : Char) (rest : List Char) :
    Answers r u c (Scan.transition s.cursor s.mode s.tokens c) (r.step (u ++ c :: rest) c) := by
  have hcursor := h.cursor_eq
  have hposition : r.position = s.cursor.position := congrArg Cursor.position hcursor
  have hcurrent := h.place.1
  obtain ⟨hsteps, _, htokens, hstart, hmode⟩ := h
  obtain ⟨cursor, mode, tokens⟩ := s
  simp only at hcursor hposition htokens hmode ⊢
  cases mode with
  | between =>
    have hstate : r.state = .outside := hmode
    simp only [Scan.transition, Registers.step, hstate]
    cases hclass : LexicalClass.of c with
    | space | lineBreak => exact .ok rfl htokens hstart hstate
    | listOpen | listClose => exact .ok rfl (addDelimiter_tokens hposition htokens _ c) hstart hstate
    | quote =>
      obtain rfl := (LexicalClass.of_eq_iff rfl c).1 hclass
      exact .ok rfl htokens (Nat.le_of_eq hcurrent) ⟨rfl, inString_beginToken hcursor hcurrent hsteps⟩
    | backslash =>
      simp only [hposition]
      exact .error _
    | hash => exact .ok rfl htokens hstart rfl
    | other => exact .ok rfl htokens (Nat.le_of_eq hcurrent) ⟨rfl, hposition, rfl⟩
  | word first text =>
    obtain ⟨hstate, hfirst, htext⟩ := hmode
    have hword := finishBare_tokens hfirst htext htokens
    simp only [Scan.transition, Registers.step, hstate]
    cases hclass : LexicalClass.of c with
    | space | lineBreak => exact .ok rfl hword hstart rfl
    | listOpen | listClose => exact .ok rfl (addDelimiter_tokens (r := r.finishBare) hposition hword _ c) hstart rfl
    | quote | backslash | hash =>
      simp only [hposition]
      exact .error _
    | other => exact .ok rfl htokens hstart ⟨hstate, hfirst, congrArg (c :: ·) htext⟩
  | quoted first raw text =>
    obtain ⟨hstate, hstring⟩ := hmode
    have hplain : c ≠ '"' → c ≠ '\\' →
        Answers r u c (.ok (.quoted first (c :: raw) (c :: text), tokens)) (some (.ok (r.push c))) :=
      fun hquote hbackslash => .ok rfl htokens hstart ⟨hstate, hstring.plain hquote hbackslash⟩
    have hother : ∀ {k d}, LexicalClass.of c = k → LexicalClass.of d ≠ k → c ≠ d := by
      rintro k d rfl hne rfl
      exact hne rfl
    simp only [Scan.transition, Registers.step, hstate]
    cases hclass : LexicalClass.of c with
    | quote =>
      rw [hstring.finishString_eq hcurrent]
      exact .ok rfl (congrArg _ htokens) hstart rfl
    | backslash =>
      obtain rfl := (LexicalClass.of_eq_iff rfl c).1 hclass
      exact .ok rfl htokens hstart ⟨rfl, hstring.backslash⟩
    | space | lineBreak | listOpen | listClose | hash | other =>
      exact hplain (hother hclass (by decide)) (hother hclass (by decide))
  | escape first raw text =>
    obtain ⟨hstate, hstring⟩ := hmode
    simp only [Scan.transition, Registers.step, hstate]
    exact .ok rfl htokens hstart ⟨rfl, hstring.escape⟩
  | comment =>
    have hstate : r.state = .comment := hmode
    simp only [Scan.transition, Registers.step, hstate]
    cases LexicalClass.of c with
    | lineBreak => exact .ok rfl htokens hstart rfl
    | space | listOpen | listClose | quote | backslash | hash | other => exact .ok rfl htokens hstart hstate

/-- **A turn of the machine is a step of the scan.** It goes through, and by either rule with the same outcome. -/
theorem round {c : Char} {rest : List Char} (h : r.Follows u s) (hlength : (u ++ c :: rest).length ≤ 2 ^ 61 - 1) :
    (∃ error, s.step c = .error error ∧ ∀ rule, r.round rule (u ++ c :: rest) = some (.error error)) ∨
      ∃ s' r', s.step c = .ok s' ∧ (∀ rule, r.round rule (u ++ c :: rest) = some (.ok r')) ∧ r'.Follows (u ++ [c]) s' := by
  have hcurrent : (u ++ c :: rest)[r.cursor.current.toNat]? = some c := by
    rw [h.place.1]
    simp
  have hanswers := h.step c rest
  generalize hnext : Scan.transition s.cursor s.mode s.tokens c = next at hanswers
  generalize hturn : r.step (u ++ c :: rest) c = turn at hanswers
  cases hanswers with
  | error error =>
    refine Or.inl ⟨error, by simp [Scan.step, hnext, Except.map], fun rule => ?_⟩
    simp [Registers.round, hcurrent, hturn]
  | @ok mode tokens next hcursor htokens hstart hmode =>
    have hbound : u.length + 1 ≤ 2 ^ 61 - 1 := by
      simp only [List.length_append, List.length_cons] at hlength
      omega
    obtain ⟨w, hadvance, hplace⟩ := WordCursor.exists_advance h.cursor hbound c
    have hstep : s.step c = .ok ⟨s.cursor.advance c, mode, tokens⟩ := by simp [Scan.step, hnext, Except.map]
    refine Or.inr ⟨_, { next with cursor := w }, hstep, fun rule => ?_, ?_, hplace, htokens, ?_, hmode.move w⟩
    · simp [Registers.round, hcurrent, hturn, hcursor, hadvance]
    · rw [Scan.steps_append, h.steps]
      simp [Scan.steps, Except.bind, hstep]
    · simp only [List.length_append, List.length_singleton]
      omega

/-- At the end of the text the machine has what the scan has. -/
theorem finish_eq (h : r.Follows u s) : r.finish = s.finish := by
  obtain ⟨cursor, mode, tokens⟩ := s
  have htokens : r.tokens = tokens := h.tokens
  have hmode := h.mode
  cases mode with
  | between => simp [Registers.finish, Scan.finish, show r.state = .outside from hmode, htokens]
  | comment => simp [Registers.finish, Scan.finish, show r.state = .comment from hmode, htokens]
  | word first text =>
    obtain ⟨hstate, hfirst, htext⟩ := hmode
    simp [Registers.finish, Scan.finish, hstate, finishBare_tokens hfirst htext htokens]
  | quoted first raw text => simp [Registers.finish, Scan.finish, hmode.1]
  | escape first raw text => simp [Registers.finish, Scan.finish, hmode.1]

/-- **The loop ends with the outcome of the scan.** -/
theorem returns (rule : Overflow) {rest : List Char} (h : r.Follows u s) (hlength : (u ++ rest).length ≤ 2 ^ 61 - 1) :
    Returns rule (u ++ rest) r (s.run rest) := by
  induction rest generalizing r u s with
  | nil =>
    rw [Scan.run_nil, ← h.finish_eq]
    exact .finish (by simp [h.place.1])
  | cons c rest ih =>
    have hmore : r.cursor.current.toNat < (u ++ c :: rest).length := by simp [h.place.1]
    rw [Scan.run_cons]
    rcases h.round hlength with ⟨error, hstep, hround⟩ | ⟨s', r', hstep, hround, hfollows⟩
    · rw [hstep]
      exact .fail hmore (hround rule)
    · have hsource : u ++ c :: rest = u ++ [c] ++ rest := by simp
      rw [hstep]
      refine .next hmore (hround rule) ?_
      rw [hsource] at hlength ⊢
      exact ih hfollows hlength

end Follows

theorem initial_follows : initial.Follows [] Scan.start where
  steps := rfl
  cursor := rfl
  tokens := rfl
  start_le := Nat.le_refl 0
  mode := rfl

/-- Every state on the way is that of a scan which has read a part of the text. -/
theorem Reached.follows {rule : Overflow} {source : List Char} {r : Registers} (h : Reached rule source r)
    (hlength : source.length ≤ 2 ^ 61 - 1) : ∃ u rest s, source = u ++ rest ∧ r.Follows u s := by
  induction h with
  | initial => exact ⟨[], source, _, rfl, initial_follows⟩
  | @round r r' _ hmore hround ih =>
    obtain ⟨u, rest, s, rfl, hfollows⟩ := ih
    cases rest with
    | nil => simp [hfollows.place.1] at hmore
    | cons c rest =>
      rcases hfollows.round hlength with ⟨error, _, hfails⟩ | ⟨s', next, _, hgoes, hnext⟩
      · rw [hfails] at hround
        cases hround
      · rw [hgoes] at hround
        obtain rfl : next = r' := by simpa using hround
        exact ⟨u ++ [c], rest, s', by simp, hnext⟩

/-! ## Ranges -/

/-- The registers are within the bounds of a text of `n` characters. -/
structure InRange (r : Registers) (n : Nat) : Prop where
  line : 1 ≤ r.cursor.line.toNat ∧ r.cursor.line.toNat ≤ n + 1
  column : 1 ≤ r.cursor.column.toNat ∧ r.cursor.column.toNat ≤ 8 * n + 1
  start : r.start.toNat ≤ r.cursor.current.toNat
  current : r.cursor.current.toNat ≤ n

/-- The token that was begun last is a string, which the current character ends: before its first character the scan was
between tokens, and from there to the current character the source is the string as it is written. -/
structure AtStringEnd (r : Registers) (source : List Char) : Prop where
  start_lt : r.start.toNat < r.cursor.current.toNat
  current_lt : r.cursor.current.toNat < source.length
  opening : source[r.start.toNat]? = some '"'
  between : ∃ s, Scan.start.steps (source.take r.start.toNat) = .ok s ∧ s.mode = .between
  literal : ∃ lexeme, slice? source r.start.toNat r.cursor.current.toNat = some lexeme ∧
    Lexeme lexeme (.string (String.ofList r.text.reverse))

namespace Follows

variable {r : Registers} {u rest : List Char} {s : Scan}

theorem inRange (h : r.Follows u s) : r.InRange (u ++ rest).length := by
  obtain ⟨hcurrent, hposition⟩ := h.place
  have hline : r.cursor.line.toNat = (Position.after u).line := congrArg Position.line hposition
  have hcolumn : r.cursor.column.toNat = (Position.after u).column := congrArg Position.column hposition
  have hbounds := Position.after_bounds u
  have hstart := h.start_le
  have hlength : (u ++ rest).length = u.length + rest.length := List.length_append
  exact ⟨by omega, by omega, by omega, by omega⟩

theorem atStringEnd (h : r.Follows u s) (hstate : r.state = .quoted) (rest : List Char) :
    r.AtStringEnd (u ++ '"' :: rest) := by
  have hcurrent := h.place.1
  obtain ⟨cursor, mode, tokens⟩ := s
  have hmode := h.mode
  -- only a scan inside of a string has registers in this state
  cases mode with
  | quoted first raw text =>
    have hslice := hmode.2.slice?_eq hcurrent '"' rest
    have htext := hmode.2.text
    obtain ⟨before, body, ⟨hstart, hbetween⟩, rfl, hraw, hbody⟩ := hmode.2.string
    rw [List.append_nil] at hraw
    rw [List.reverse_cons, hraw] at hslice
    rw [hraw] at hcurrent ⊢
    simp only [List.length_append, List.length_cons] at hcurrent
    refine ⟨by omega, ?_, ?_, ?_, _, hslice, ?_⟩
    · simp only [List.length_append, List.length_cons]
      omega
    · rw [hstart]
      simp
    · rw [hstart, List.append_assoc, List.take_left]
      exact hbetween
    · rw [htext]
      exact .string hbody
  | escape first raw text => simp [Holds, hstate] at hmode
  | _ => simp [Holds, hstate] at hmode

end Follows

end Registers

open Registers

/-- **A scan with registers stays in range.** On a text of at most `2 ^ 61 - 1` characters, in every state that the machine
gets to, lines, columns and indices are within their bounds, the words tell the place that counting tells, and the next turn
goes through with the same outcome whether an overflow would stop the machine or wrap around. When a string ends, the start
index is that of its opening quote, and what is cut out of the source is the string as it is written. The loop ends, with
the tokens or the error of the text. -/
theorem scan_in_range (rule : Overflow) (text : String) (hlength : text.toList.length ≤ 2 ^ 61 - 1) :
    (∀ r, Reached rule text.toList r →
      r.InRange text.toList.length ∧
      r.cursor.toCursor = Cursor.start.past (text.toList.take r.cursor.current.toNat) ∧
      (r.cursor.current.toNat < text.toList.length →
        ∃ outcome, r.round .stop text.toList = some outcome ∧ r.round .wrap text.toList = some outcome) ∧
      (r.state = .quoted → text.toList[r.cursor.current.toNat]? = some '"' → r.AtStringEnd text.toList)) ∧
    ∀ outcome, Returns rule text.toList initial outcome ↔ outcome = Token.scan text := by
  have hreturns : Returns rule text.toList initial (Token.scan text) := initial_follows.returns rule hlength
  refine ⟨fun r hr => ?_, fun outcome => ⟨fun h => h.unique hreturns, fun h => h ▸ hreturns⟩⟩
  obtain ⟨u, rest, s, hsource, h⟩ := hr.follows hlength
  have hcurrent := h.place.1
  rw [hsource] at hlength ⊢
  refine ⟨h.inRange, ?_, fun hmore => ?_, fun hstate hquote => ?_⟩
  · rw [hcurrent, List.take_left, h.cursor]
  · cases rest with
    | nil => simp [hcurrent] at hmore
    | cons c rest =>
      rcases h.round hlength with ⟨error, _, hround⟩ | ⟨_, next, _, hround, _⟩
      · exact ⟨_, hround .stop, hround .wrap⟩
      · exact ⟨_, hround .stop, hround .wrap⟩
  · cases rest with
    | nil => simp [hcurrent] at hquote
    | cons c rest =>
      obtain rfl : c = '"' := by simpa [hcurrent] using hquote
      exact h.atStringEnd hstate rest

/-- A tab, and a string with an escaped quote in it after a line feed, on a machine that wraps around. -/
theorem scan_in_range_escaped_quote :
    "\tx\n\"\\\"\"".toList.length ≤ 2 ^ 61 - 1 ∧
      Returns .wrap "\tx\n\"\\\"\"".toList initial
        (.ok [⟨.symbol "x", "x", ⟨1, 9⟩⟩, ⟨.string "\"", "\"\\\"\"", ⟨2, 1⟩⟩]) := by
  have hlength : "\tx\n\"\\\"\"".toList.length ≤ 2 ^ 61 - 1 := by decide
  have htokens : Token.scan "\tx\n\"\\\"\"" =
      .ok [⟨.symbol "x", "x", ⟨1, 9⟩⟩, ⟨.string "\"", "\"\\\"\"", ⟨2, 1⟩⟩] := by decide +kernel
  exact ⟨hlength, ((scan_in_range .wrap _ hlength).2 _).2 htokens.symm⟩

end SExprLang
