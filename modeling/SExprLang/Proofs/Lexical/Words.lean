import Mathlib.Algebra.Group.Nat.Defs
import SExprLang.Proofs.Place

/-!
# Cursors in machine words

A machine keeps the place that a scan has reached in words of 64 bits. An operation on words whose result does not fit
stops the machine or wraps around, as the rule for overflows has it. A character moves a place on by at most one line or
eight columns (`Cursor.positionAfter_bounds`), so after `n` characters the line is at most `n + 1` and the column at most
`8 * n + 1` (`Position.after_bounds`). As long as these fit into a word, no operation on a place overflows, and the words
tell the place that counting tells (`WordCursor.exists_advance`).
-/

namespace SExprLang

/-! ## Words -/

/-- What becomes of an operation whose result does not fit into a word: it stops the machine, or its lowest 64 bits are
the result. -/
inductive Overflow where
  | stop
  | wrap
deriving DecidableEq

namespace Overflow

/-- The result of an operation that does or does not fit. -/
def settle (rule : Overflow) (fits : Bool) (result : UInt64) : Option UInt64 :=
  match rule with
  | stop => if fits then some result else none
  | wrap => some result

/-- The sum of two words. -/
def add (rule : Overflow) (a b : UInt64) : Option UInt64 := rule.settle (a.toNat + b.toNat < 2 ^ 64) (a + b)

/-- The difference of two words. -/
def sub (rule : Overflow) (a b : UInt64) : Option UInt64 := rule.settle (b.toNat ≤ a.toNat) (a - b)

/-- The product of two words. -/
def mul (rule : Overflow) (a b : UInt64) : Option UInt64 := rule.settle (a.toNat * b.toNat < 2 ^ 64) (a * b)

variable {a b : UInt64}

@[simp]
theorem settle_true (rule : Overflow) (result : UInt64) : rule.settle true result = some result := by
  cases rule <;> rfl

/-- A sum that fits is the sum by either rule. -/
theorem exists_add (h : a.toNat + b.toNat < 2 ^ 64) :
    ∃ sum, (∀ rule, add rule a b = some sum) ∧ sum.toNat = a.toNat + b.toNat := by
  refine ⟨a + b, fun rule => by rw [add, decide_eq_true h, settle_true], ?_⟩
  rw [UInt64.toNat_add, Nat.mod_eq_of_lt h]

theorem exists_sub (h : b.toNat ≤ a.toNat) :
    ∃ rest, (∀ rule, sub rule a b = some rest) ∧ rest.toNat = a.toNat - b.toNat :=
  ⟨a - b, fun rule => by rw [sub, decide_eq_true h, settle_true], UInt64.toNat_sub_of_le a b h⟩

theorem exists_mul (h : a.toNat * b.toNat < 2 ^ 64) :
    ∃ product, (∀ rule, mul rule a b = some product) ∧ product.toNat = a.toNat * b.toNat := by
  refine ⟨a * b, fun rule => by rw [mul, decide_eq_true h, settle_true], ?_⟩
  rw [UInt64.toNat_mul, Nat.mod_eq_of_lt h]

end Overflow

/-! ## Cursors -/

/-- A cursor in words. -/
structure WordCursor where
  /-- The number of characters before the cursor. -/
  current : UInt64
  line : UInt64
  column : UInt64
  /-- Whether the character before the cursor is a carriage return. -/
  afterReturn : Bool
deriving DecidableEq

namespace WordCursor

/-- The start of a text. -/
def start : WordCursor := ⟨0, 1, 1, false⟩

/-- The place that the words tell. -/
def toCursor (w : WordCursor) : Cursor := ⟨w.current.toNat, ⟨w.line.toNat, w.column.toNat⟩, w.afterReturn⟩

/-- The first column after `column` at a tab stop. -/
def tabStopAfter (rule : Overflow) (column : UInt64) : Option UInt64 := do
  let before ← rule.sub column 1
  let stops ← rule.add (before / .ofNat tabDistance) 1
  rule.add (← rule.mul stops (.ofNat tabDistance)) 1

/-- The line and the column after a character. -/
def positionAfter (rule : Overflow) (w : WordCursor) (c : Char) : Option (UInt64 × UInt64) :=
  match c with
  | '\n' => if w.afterReturn then some (w.line, w.column) else do return (← rule.add w.line 1, 1)
  | '\r' | '\u2028' | '\u2029' => do return (← rule.add w.line 1, 1)
  | '\t' => do return (w.line, ← tabStopAfter rule w.column)
  | _ => do return (w.line, ← rule.add w.column 1)

/-- Moves over one character. -/
def advance (rule : Overflow) (w : WordCursor) (c : Char) : Option WordCursor := do
  let current ← rule.add w.current 1
  let (line, column) ← w.positionAfter rule c
  return ⟨current, line, column, c == '\r'⟩

end WordCursor

/-! ## How far a character moves -/

theorem tabStopAfter_bounds {column : Nat} (h : 1 ≤ column) :
    column < tabStopAfter column ∧ tabStopAfter column ≤ column + 8 := by
  unfold tabStopAfter tabDistance
  omega

/-- A character moves on by one line or by up to eight columns. -/
theorem Cursor.positionAfter_bounds (cursor : Cursor) (c : Char) (hcolumn : 1 ≤ cursor.position.column) :
    cursor.position.line ≤ (cursor.positionAfter c).line ∧ (cursor.positionAfter c).line ≤ cursor.position.line + 1 ∧
      1 ≤ (cursor.positionAfter c).column ∧ (cursor.positionAfter c).column ≤ cursor.position.column + 8 := by
  have htab := tabStopAfter_bounds hcolumn
  unfold positionAfter
  split
  · split
    · omega
    · dsimp only
      omega
  all_goals
    dsimp only
    omega

/-- **Every character of a text is worth at most one line and eight columns.** -/
theorem Position.after_bounds (u : List Char) :
    1 ≤ (after u).line ∧ (after u).line ≤ u.length + 1 ∧ 1 ≤ (after u).column ∧ (after u).column ≤ 8 * u.length + 1 := by
  induction u using List.reverseRecOn with
  | nil => simp [after, lastLine, loneLineFeeds]
  | append_singleton u c ih =>
    have hstep := Cursor.positionAfter_bounds ⟨u.length, after u, u.getLast? == some '\r'⟩ c ih.2.2.1
    rw [Cursor.positionAfter_eq] at hstep
    simp only [List.length_append, List.length_singleton] at hstep ⊢
    omega

/-! ## Words tell the place -/

namespace WordCursor

variable {w : WordCursor}

theorem exists_tabStopAfter {column : UInt64} (hlow : 1 ≤ column.toNat) (hhigh : column.toNat + 8 < 2 ^ 64) :
    ∃ stop, (∀ rule, tabStopAfter rule column = some stop) ∧ stop.toNat = SExprLang.tabStopAfter column.toNat := by
  -- Every result on the way is at most the tab stop, which is at most eight columns on.
  have hone : (1 : UInt64).toNat = 1 := rfl
  have hdistance : (UInt64.ofNat tabDistance).toNat = 8 := rfl
  obtain ⟨before, hbefore, hbeforeNat⟩ := Overflow.exists_sub (a := column) (b := 1) (by omega)
  have hdiv : (before / .ofNat tabDistance).toNat = (column.toNat - 1) / 8 := by
    rw [UInt64.toNat_div, hbeforeNat, hone, hdistance]
  obtain ⟨stops, hstops, hstopsNat⟩ := Overflow.exists_add (a := before / .ofNat tabDistance) (b := 1) (by omega)
  obtain ⟨last, hlast, hlastNat⟩ := Overflow.exists_mul (a := stops) (b := .ofNat tabDistance)
    (by rw [hdistance]; omega)
  rw [hdistance] at hlastNat
  obtain ⟨stop, hstop, hstopNat⟩ := Overflow.exists_add (a := last) (b := 1) (by omega)
  refine ⟨stop, fun rule => by simp [tabStopAfter, hbefore, hstops, hlast, hstop], ?_⟩
  unfold SExprLang.tabStopAfter tabDistance
  omega

/-- The next line and the next column fit, and so the words tell them. -/
theorem exists_positionAfter (c : Char) (hline : w.line.toNat + 1 < 2 ^ 64) (hlow : 1 ≤ w.column.toNat)
    (hhigh : w.column.toNat + 8 < 2 ^ 64) :
    ∃ line column, (∀ rule, w.positionAfter rule c = some (line, column)) ∧
      (⟨line.toNat, column.toNat⟩ : Position) = w.toCursor.positionAfter c := by
  have hone : (1 : UInt64).toNat = 1 := rfl
  obtain ⟨line, hadd, hlineNat⟩ := Overflow.exists_add (a := w.line) (b := 1) (by omega)
  obtain ⟨column, hnext, hcolumnNat⟩ := Overflow.exists_add (a := w.column) (b := 1) (by omega)
  obtain ⟨stop, htab, hstopNat⟩ := exists_tabStopAfter hlow hhigh
  rw [hone] at hlineNat hcolumnNat
  unfold positionAfter Cursor.positionAfter
  split
  · by_cases hreturn : w.afterReturn = true
    · exact ⟨w.line, w.column, by simp [hreturn], by simp [toCursor, hreturn]⟩
    · exact ⟨line, 1, by simp [hreturn, hadd], by simp [toCursor, hreturn, hlineNat]⟩
  · exact ⟨line, 1, by simp [hadd], by simp [toCursor, hlineNat]⟩
  · exact ⟨line, 1, by simp [hadd], by simp [toCursor, hlineNat]⟩
  · exact ⟨line, 1, by simp [hadd], by simp [toCursor, hlineNat]⟩
  · exact ⟨w.line, stop, by simp [htab], by simp [toCursor, hstopNat]⟩
  · exact ⟨w.line, column, by simp [hnext], by simp [toCursor, hcolumnNat]⟩

/-- **Within its bounds a cursor in words moves like any other**, whatever the rule for overflows is. -/
theorem exists_advance {u : List Char} (h : w.toCursor = Cursor.start.past u) (hlength : u.length + 1 ≤ 2 ^ 61 - 1)
    (c : Char) : ∃ w', (∀ rule, w.advance rule c = some w') ∧ w'.toCursor = Cursor.start.past (u ++ [c]) := by
  have hone : (1 : UInt64).toNat = 1 := rfl
  have hplace := h.trans (Cursor.start_past u)
  have hcurrent : w.current.toNat = u.length := congrArg Cursor.offset hplace
  have hline : w.line.toNat = (Position.after u).line := congrArg (·.position.line) hplace
  have hcolumn : w.column.toNat = (Position.after u).column := congrArg (·.position.column) hplace
  have hbounds := Position.after_bounds u
  obtain ⟨current, hadd, hcurrentNat⟩ := Overflow.exists_add (a := w.current) (b := 1) (by omega)
  obtain ⟨line, column, hposition, hpositionNat⟩ :=
    exists_positionAfter (w := w) c (by omega) (by omega) (by omega)
  refine ⟨⟨current, line, column, c == '\r'⟩, fun rule => by simp [advance, hadd, hposition], ?_⟩
  rw [Cursor.past_append, ← h, toCursor, hcurrentNat, hpositionNat]
  rfl

end WordCursor

end SExprLang
