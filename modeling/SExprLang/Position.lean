/-!
# Positions in source text

A `Position` is a line and a column, both counted from one. A `Cursor` walks over the characters of a text and knows
the position of the next one: every line break starts a new line, a carriage return with the line feed after it is one
break, and a tab moves to the next tab stop.
-/

namespace SExprLang

/-- A place in source text, line and column counted from one. -/
structure Position where
  line : Nat
  column : Nat
deriving DecidableEq, Inhabited

namespace Position

/-- Positions are ordered as in the text: by line, then by column. -/
protected def le (p q : Position) : Bool :=
  decide (p.line < q.line) || (p.line == q.line && decide (p.column ≤ q.column))

/-- A list of positions in the order of the text. -/
def sort (positions : List Position) : List Position :=
  positions.mergeSort Position.le

/-- The position as `line:column`. -/
def display (p : Position) : String := toString p.line ++ ":" ++ toString p.column

end Position

/-- The distance between tab stops. -/
def tabDistance : Nat := 8

/-- The first column after `column` at a tab stop. -/
def tabStopAfter (column : Nat) : Nat := ((column - 1) / tabDistance + 1) * tabDistance + 1

/-- A place between two characters of a text. -/
structure Cursor where
  /-- The number of characters before the cursor. -/
  offset : Nat
  /-- The position of the character after the cursor. -/
  position : Position
  /-- Whether the character before the cursor is a carriage return. -/
  afterReturn : Bool
deriving DecidableEq, Inhabited

namespace Cursor

/-- The start of a text. -/
def start : Cursor := ⟨0, ⟨1, 1⟩, false⟩

/-- The position after a character. A line feed right after a carriage return belongs to the break before it. -/
def positionAfter (cursor : Cursor) (c : Char) : Position :=
  match c with
  | '\n' => if cursor.afterReturn then cursor.position else ⟨cursor.position.line + 1, 1⟩
  | '\r' | '\u2028' | '\u2029' => ⟨cursor.position.line + 1, 1⟩
  | '\t' => ⟨cursor.position.line, tabStopAfter cursor.position.column⟩
  | _ => ⟨cursor.position.line, cursor.position.column + 1⟩

/-- Moves over one character. -/
def advance (cursor : Cursor) (c : Char) : Cursor :=
  ⟨cursor.offset + 1, cursor.positionAfter c, c == '\r'⟩

end Cursor

end SExprLang
