import SExprLang.Text.Ranges

/-!
# White space

The characters with the Unicode property `White_Space`, and among them the ones that end a line.
-/

namespace SExprLang.Text

/-- The ranges of the property `White_Space`. -/
def whiteSpace : List (Nat × Nat) :=
  [(0x9, 0xd), (0x20, 0x20), (0x85, 0x85), (0xa0, 0xa0), (0x1680, 0x1680), (0x2000, 0x200a), (0x2028, 0x2029),
   (0x202f, 0x202f), (0x205f, 0x205f), (0x3000, 0x3000)]

/-- White space of any kind, line breaks included. -/
def isBlank (c : Char) : Bool := inRanges whiteSpace c

/-- The four characters that end a line. -/
def isLineBreak (c : Char) : Bool :=
  c == '\n' || c == '\r' || c == '\u2028' || c == '\u2029'

end SExprLang.Text
