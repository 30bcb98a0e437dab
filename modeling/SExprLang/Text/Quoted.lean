import SExprLang.Text.DefaultIgnorable
import SExprLang.Text.ExtendingMark
import SExprLang.Text.Unprintable

/-!
# Quoted text

Text between double quotes on one line. Six characters have an escape of their own, every other character that would not
be visible by itself is written by its code point, and all else stands for itself.
-/

namespace SExprLang.Text

/-- Whether a character is written by its code point: it has no visible form, is shown as nothing, or is shown as a part of
the character before it. Every printable ASCII character stands for itself. -/
def needsCodePoint (c : Char) : Bool :=
  if 0x20 ≤ c.toNat ∧ c.toNat < 0x7f then false else isUnprintable c || isDefaultIgnorable c || isExtendingMark c

/-- The code point of a character in hexadecimal, between braces. -/
def codePointEscape (c : Char) : List Char :=
  ['\\', 'u', '\x7b'] ++ Nat.toDigits 16 c.toNat ++ ['\x7d']

/-- One character as it stands inside the quotes. -/
def escapeChar (c : Char) : List Char :=
  match c with
  | '\x00' => ['\\', '0']
  | '\t' => ['\\', 't']
  | '\r' => ['\\', 'r']
  | '\n' => ['\\', 'n']
  | '"' => ['\\', '"']
  | '\\' => ['\\', '\\']
  | c => if needsCodePoint c then codePointEscape c else [c]

/-- The characters of a text between double quotes, escaped where needed. -/
def quoteChars (text : List Char) : List Char :=
  '"' :: text.flatMap escapeChar ++ ['"']

/-- A text between double quotes, escaped where needed. -/
def quote (text : String) : String := String.ofList (quoteChars text.toList)

end SExprLang.Text
