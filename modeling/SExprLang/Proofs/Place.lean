import Mathlib.Data.List.DropRight
import Mathlib.Data.Nat.Find
import SExprLang.Position
import SExprLang.Text.Blank

/-!
# Where the character after a text stands

`Position.after u` says where the next character stands when the text `u` has gone before, by counting the line breaks
of the whole of `u` and the columns of its last line. A cursor keeps the same place one character at a time, with a flag
for the carriage return (`Cursor.start_past`).
-/

namespace SExprLang

attribute [ext] Position

/-! ## Places by counting -/

namespace Position

/-- Every column has a tab stop after it; the stops are the columns 1, 9, 17 and so on. -/
theorem exists_tabStop (column : Nat) : ∃ stop, column < stop ∧ stop % 8 = 1 := ⟨8 * column + 9, by omega, by omega⟩

/-- The least tab stop after a column. -/
def nextTabStop (column : Nat) : Nat := Nat.find (exists_tabStop column)

/-- The column after a character that breaks no line. -/
def columnAfter (column : Nat) (c : Char) : Nat := if c = '\t' then nextTabStop column else column + 1

/-- The line feeds of a text that do not stand right after a carriage return; `before` is the character before the
text. -/
def loneLineFeeds (before : Option Char) : List Char → Nat
  | [] => 0
  | c :: rest => (if c = '\n' ∧ before ≠ some '\r' then 1 else 0) + loneLineFeeds (some c) rest

/-- The characters of a text after its last line break. -/
def lastLine (u : List Char) : List Char := u.rtakeWhile fun c => !Text.isLineBreak c

/-- The place of the character that follows the text `u`. -/
def after (u : List Char) : Position where
  line := 1 + (u.countP (fun c => c = '\r' ∨ c = '\u2028' ∨ c = '\u2029') + loneLineFeeds none u)
  column := (lastLine u).foldl columnAfter 1

theorem nextTabStop_gt (column : Nat) : column < nextTabStop column := (Nat.find_spec (exists_tabStop column)).1

/-- The step of a tab by division finds the least tab stop. -/
theorem tabStopAfter_eq {column : Nat} (h : 1 ≤ column) : tabStopAfter column = nextTabStop column := by
  symm
  rw [nextTabStop, Nat.find_eq_iff]
  unfold tabStopAfter tabDistance
  refine ⟨⟨by omega, by omega⟩, ?_⟩
  rintro stop hlt ⟨hgt, hstop⟩
  omega

/-- One more character adds a line feed to the count iff it is one and the text before it does not end in a carriage
return. -/
theorem loneLineFeeds_concat (c : Char) : ∀ (before : Option Char) (u : List Char),
    loneLineFeeds before (u ++ [c]) =
      loneLineFeeds before u + if c = '\n' ∧ u.getLast?.or before ≠ some '\r' then 1 else 0
  | before, [] => (Nat.zero_add _).symm
  | before, d :: u => by
    have hlast : (d :: u).getLast?.or before = u.getLast?.or (some d) := by
      rw [List.getLast?_cons]
      cases u.getLast? <;> rfl
    rw [List.cons_append, loneLineFeeds, loneLineFeeds_concat c (some d) u, loneLineFeeds, hlast]
    omega

theorem one_le_foldl_columnAfter : ∀ (line : List Char) {column : Nat}, 1 ≤ column →
    1 ≤ line.foldl columnAfter column
  | [], _, h => h
  | c :: line, column, h => by
    refine one_le_foldl_columnAfter line ?_
    unfold columnAfter
    have := nextTabStop_gt column
    split <;> omega

theorem one_le_column_after (u : List Char) : 1 ≤ (after u).column := one_le_foldl_columnAfter _ (Nat.le_refl 1)

/-- After a line break the columns start again. -/
theorem column_after_break {c : Char} (u : List Char) (h : Text.isLineBreak c = true) :
    (after (u ++ [c])).column = 1 := by
  have hline : lastLine (u ++ [c]) = [] := List.rtakeWhile_concat_neg _ _ _ (by simp [h])
  simp [after, hline]

/-- A character that breaks no line moves on the last line alone. -/
theorem after_concat {c : Char} (u : List Char) (h : Text.isLineBreak c = false) :
    after (u ++ [c]) = ⟨(after u).line, columnAfter (after u).column c⟩ := by
  have hline : lastLine (u ++ [c]) = lastLine u ++ [c] := List.rtakeWhile_concat_pos _ _ _ (by simp [h])
  simp only [Text.isLineBreak, Bool.or_eq_false_iff, beq_eq_false_iff_ne, ne_eq] at h
  obtain ⟨⟨⟨hn, hr⟩, hl⟩, hp⟩ := h
  simp [after, hline, loneLineFeeds_concat, hn, hr, hl, hp]

/-- A line feed starts a line iff it does not follow a carriage return. -/
theorem line_after_lineFeed (u : List Char) :
    (after (u ++ ['\n'])).line = (after u).line + if u.getLast? = some '\r' then 0 else 1 := by
  simp only [after, List.countP_append, loneLineFeeds_concat]
  by_cases h : u.getLast? = some '\r'
  · simp [h]
  · simp [h]; omega

/-- The other breaks always start a line. -/
theorem line_after_break {c : Char} (u : List Char) (h : c = '\r' ∨ c = '\u2028' ∨ c = '\u2029') :
    (after (u ++ [c])).line = (after u).line + 1 := by
  have hn : c ≠ '\n' := by rintro rfl; revert h; decide
  simp only [after, List.countP_append, loneLineFeeds_concat, hn, false_and, if_false, List.countP_singleton]
  simp [h]; omega

end Position

/-! ## Cursors over texts -/

namespace Cursor

/-- Moves past a text. -/
def past (cursor : Cursor) (text : List Char) : Cursor := text.foldl advance cursor

@[simp]
theorem past_nil (cursor : Cursor) : cursor.past [] = cursor := rfl

@[simp]
theorem past_cons (cursor : Cursor) (c : Char) (text : List Char) :
    cursor.past (c :: text) = (cursor.advance c).past text := rfl

@[simp]
theorem past_append (cursor : Cursor) (u v : List Char) : cursor.past (u ++ v) = (cursor.past u).past v :=
  List.foldl_append

/-- A line feed moves a cursor with the right place and flag to the right place. -/
theorem positionAfter_lineFeed (u : List Char) :
    positionAfter ⟨u.length, Position.after u, u.getLast? == some '\r'⟩ '\n' = Position.after (u ++ ['\n']) := by
  have hline := Position.line_after_lineFeed u
  have hcol := Position.column_after_break u (c := '\n') rfl
  by_cases hr : u.getLast? = some '\r'
  · -- the break is the carriage return's, after which the column is one already
    obtain ⟨v, rfl⟩ := List.getLast?_eq_some_iff.1 hr
    have hone := Position.column_after_break v (c := '\r') rfl
    rw [if_pos hr] at hline
    simp only [positionAfter, hr, beq_self_eq_true, if_true]
    exact Position.ext hline.symm (hone.trans hcol.symm)
  · rw [if_neg hr] at hline
    simp only [positionAfter, beq_eq_false_iff_ne.2 hr, Bool.false_eq_true, if_false]
    exact Position.ext hline.symm hcol.symm

/-- One character moves a cursor with the right place and flag to the right place. -/
theorem positionAfter_eq (u : List Char) (c : Char) :
    positionAfter ⟨u.length, Position.after u, u.getLast? == some '\r'⟩ c = Position.after (u ++ [c]) := by
  by_cases hb : Text.isLineBreak c = true
  · have hcol := Position.column_after_break u hb
    simp only [Text.isLineBreak, Bool.or_eq_true, beq_iff_eq] at hb
    rcases hb with ((rfl | rfl) | rfl) | rfl
    · exact positionAfter_lineFeed u
    all_goals exact Position.ext (Position.line_after_break u (by decide)).symm hcol.symm
  · have hc : Text.isLineBreak c = false := Bool.eq_false_iff.2 hb
    rw [Position.after_concat u hc]
    simp only [Text.isLineBreak, Bool.or_eq_false_iff, beq_eq_false_iff_ne, ne_eq] at hc
    obtain ⟨⟨⟨hn, hr⟩, hl⟩, hp⟩ := hc
    unfold positionAfter Position.columnAfter
    split <;> simp_all [Position.tabStopAfter_eq, Position.one_le_column_after]

/-- **A cursor that starts before the text stands where counting says.** -/
theorem start_past (u : List Char) :
    start.past u = ⟨u.length, Position.after u, u.getLast? == some '\r'⟩ := by
  induction u using List.reverseRecOn with
  | nil => rfl
  | append_singleton u c ih =>
    rw [past_append, ih, past_cons, past_nil, advance, positionAfter_eq]
    simp [List.getLast?_append]

end Cursor

end SExprLang
