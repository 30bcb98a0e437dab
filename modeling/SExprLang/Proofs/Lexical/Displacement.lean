import Mathlib.Data.List.Forall2
import SExprLang.Proofs.Lexical.Reading

/-!
# The same text at another place

Where a text stands has no influence on its tokens but for their positions. Two scans that differ in their cursors read a
text in step (`run_alike`): they fail at the same character, or have the same tokens. How the positions of the one answer
to those of the other is a parameter `place`; the only thing asked of it is that it is kept when both cursors go on by a
character (`Moves`).
-/

namespace SExprLang

variable {place : Position → Position → Prop}

variable (place) in
/-- The same token, at places that answer to each other. -/
structure Token.Alike (t t' : Token) : Prop where
  kind : t.kind = t'.kind
  lexeme : t.lexeme = t'.lexeme
  position : place t.position t'.position

variable (place) in
/-- Cursors at places that answer to each other, both or none of them right after a carriage return. -/
structure Cursor.Alike (cursor cursor' : Cursor) : Prop where
  position : place cursor.position cursor'.position
  afterReturn : cursor.afterReturn = cursor'.afterReturn

/-- Places that answer to each other do so again after one more character. -/
def Moves (place : Position → Position → Prop) : Prop :=
  ∀ cursor cursor' : Cursor, cursor.Alike place cursor' → ∀ c, place (cursor.positionAfter c) (cursor'.positionAfter c)

namespace Scan

/-! ## What two scans have in common -/

variable (place) in
/-- Inside of the same, begun at places that answer to each other. -/
inductive Mode.Alike : Mode → Mode → Prop
  | between : Alike .between .between
  | word {first first' : Cursor} (text : List Char) : place first.position first'.position →
      Alike (.word first text) (.word first' text)
  | quoted {first first' : Cursor} (raw text : List Char) : place first.position first'.position →
      Alike (.quoted first raw text) (.quoted first' raw text)
  | escape {first first' : Cursor} (raw text : List Char) : place first.position first'.position →
      Alike (.escape first raw text) (.escape first' raw text)
  | comment : Alike .comment .comment

variable (place) in
/-- The same tokens so far, and inside of the same. -/
structure Alike (s s' : Scan) : Prop where
  cursor : s.cursor.Alike place s'.cursor
  mode : s.mode.Alike place s'.mode
  tokens : List.Forall₂ (Token.Alike place) s.tokens s'.tokens

variable (place) in
/-- Both have a result, or both fail for the same reason. -/
inductive BothRead {α : Type} (result : α → α → Prop) : Except LexError α → Except LexError α → Prop
  | ok {a b : α} : result a b → BothRead result (.ok a) (.ok b)
  | misplacedChar (c : Char) {p q : Position} : place p q →
      BothRead result (.error (.misplacedChar c p)) (.error (.misplacedChar c q))
  | unfinishedString : BothRead result (.error .unfinishedString) (.error .unfinishedString)

/-! ## Steps and runs -/

variable {cursor cursor' : Cursor} {mode mode' : Mode} {tokens tokens' : List Token}

theorem transition_alike (hcursor : place cursor.position cursor'.position) (hmode : mode.Alike place mode')
    (htokens : List.Forall₂ (Token.Alike place) tokens tokens') (c : Char) :
    BothRead place (fun next next' => next.1.Alike place next'.1 ∧ List.Forall₂ (Token.Alike place) next.2 next'.2)
      (transition cursor mode tokens c) (transition cursor' mode' tokens' c) := by
  have hdelimiter : ∀ kind, (delimiter cursor kind c).Alike place (delimiter cursor' kind c) := fun _ => ⟨rfl, rfl, hcursor⟩
  cases hmode with
  | between =>
    simp only [transition]
    cases LexicalClass.of c with
    | space => exact .ok ⟨.between, htokens⟩
    | lineBreak => exact .ok ⟨.between, htokens⟩
    | listOpen => exact .ok ⟨.between, .cons (hdelimiter _) htokens⟩
    | listClose => exact .ok ⟨.between, .cons (hdelimiter _) htokens⟩
    | quote => exact .ok ⟨.quoted _ _ hcursor, htokens⟩
    | backslash => exact .misplacedChar c hcursor
    | hash => exact .ok ⟨.comment, htokens⟩
    | other => exact .ok ⟨.word _ hcursor, htokens⟩
  | @word first first' text hfirst =>
    have hword : (wordToken first text).Alike place (wordToken first' text) := ⟨rfl, rfl, hfirst⟩
    simp only [transition]
    cases LexicalClass.of c with
    | space => exact .ok ⟨.between, .cons hword htokens⟩
    | lineBreak => exact .ok ⟨.between, .cons hword htokens⟩
    | listOpen => exact .ok ⟨.between, .cons (hdelimiter _) (.cons hword htokens)⟩
    | listClose => exact .ok ⟨.between, .cons (hdelimiter _) (.cons hword htokens)⟩
    | quote => exact .misplacedChar c hcursor
    | backslash => exact .misplacedChar c hcursor
    | hash => exact .misplacedChar c hcursor
    | other => exact .ok ⟨.word _ hfirst, htokens⟩
  | @quoted first first' raw text hfirst =>
    simp only [transition]
    split
    · exact .ok ⟨.escape _ _ hfirst, htokens⟩
    · exact .ok ⟨.between, .cons ⟨rfl, rfl, hfirst⟩ htokens⟩
    · exact .ok ⟨.quoted _ _ hfirst, htokens⟩
  | escape raw text hfirst => exact .ok ⟨.quoted _ _ hfirst, htokens⟩
  | comment =>
    simp only [transition]
    split
    · exact .ok ⟨.between, htokens⟩
    · exact .ok ⟨.comment, htokens⟩

variable {s s' : Scan} (hplace : Moves place)

theorem finish_alike (h : s.Alike place s') :
    BothRead place (List.Forall₂ (Token.Alike place)) s.finish s'.finish := by
  obtain ⟨cursor, mode, tokens⟩ := s
  obtain ⟨cursor', mode', tokens'⟩ := s'
  obtain ⟨_, hmode, htokens⟩ := h
  simp only at hmode htokens
  cases hmode with
  | between => exact .ok (List.rel_reverse htokens)
  | word text hfirst => exact .ok (List.rel_reverse (.cons ⟨rfl, rfl, hfirst⟩ htokens))
  | quoted => exact .unfinishedString
  | escape => exact .unfinishedString
  | comment => exact .ok (List.rel_reverse htokens)

include hplace

theorem step_alike (h : s.Alike place s') (c : Char) : BothRead place (Alike place) (s.step c) (s'.step c) := by
  have hnext := transition_alike h.cursor.position h.mode h.tokens c
  unfold step
  generalize transition s.cursor s.mode s.tokens c = next, transition s'.cursor s'.mode s'.tokens c = next' at hnext ⊢
  cases hnext with
  | ok hboth => exact .ok ⟨⟨hplace _ _ h.cursor c, rfl⟩, hboth.1, hboth.2⟩
  | misplacedChar c hc => exact .misplacedChar c hc
  | unfinishedString => exact .unfinishedString

/-- **Two scans at different places read a text in step.** -/
theorem run_alike (h : s.Alike place s') (text : List Char) :
    BothRead place (List.Forall₂ (Token.Alike place)) (s.run text) (s'.run text) := by
  induction text generalizing s s' with
  | nil => exact finish_alike h
  | cons c text ih =>
    have hstep := step_alike hplace h c
    rw [run_cons, run_cons]
    generalize s.step c = next, s'.step c = next' at hstep ⊢
    cases hstep with
    | ok hnext => exact ih hnext
    | misplacedChar c hc => exact .misplacedChar c hc
    | unfinishedString => exact .unfinishedString

end Scan

end SExprLang
