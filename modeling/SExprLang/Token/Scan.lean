import SExprLang.Text.Blank
import SExprLang.Token

/-!
# Scanning text into tokens

A scan reads one character at a time and is always in one of five modes: between tokens, inside a bare word, inside a
string, right after a backslash inside a string, or inside a comment. `Scan.step` reads a character and `Scan.finish`
gives the tokens at the end of the text; `Token.scan` does both.
-/

namespace SExprLang

/-- Why a text has no tokens. -/
inductive LexError where
  /-- A character that cannot stand where it does. -/
  | misplacedChar (char : Char) (position : Position)
  /-- The text ends inside a string. -/
  | unfinishedString
deriving DecidableEq

namespace LexError

/-- The error in words. -/
def message : LexError → String
  | misplacedChar c position => "unexpected char " ++ String.singleton c ++ " at " ++ position.display
  | unfinishedString => "unexpected end of file"

/-- Where the error is, if it has a place. -/
def position? : LexError → Option Position
  | misplacedChar _ position => some position
  | unfinishedString => none

end LexError

/-- The classes of characters that a scan tells apart. -/
inductive LexicalClass where
  | space
  | lineBreak
  | listOpen
  | listClose
  | quote
  | backslash
  | hash
  | other
deriving DecidableEq

/-- The class of a character. White space that does not end a line is a space. -/
def LexicalClass.of (c : Char) : LexicalClass :=
  if Text.isLineBreak c then .lineBreak
  else if c = '(' then .listOpen
  else if c = ')' then .listClose
  else if c = '"' then .quote
  else if c = '\\' then .backslash
  else if c = '#' then .hash
  else if Text.isBlank c then .space
  else .other

namespace Scan

/-- What a scan is inside of. Collected characters stand last first, and `start` is where the token begins. -/
inductive Mode where
  /-- Between tokens. -/
  | between
  /-- In a symbol or a number. -/
  | word (start : Cursor) (text : List Char)
  /-- In a string: its characters as written, the opening quote included, and what they denote. -/
  | quoted (start : Cursor) (raw : List Char) (text : List Char)
  /-- Right after a backslash in a string. -/
  | escape (start : Cursor) (raw : List Char) (text : List Char)
  /-- From a hash to the end of the line. -/
  | comment
deriving DecidableEq

end Scan

/-- A scan in progress: the place reached, the mode there and the tokens so far, last first. -/
structure Scan where
  cursor : Cursor
  mode : Scan.Mode
  tokens : List Token
deriving DecidableEq

namespace Scan

/-- Before the first character. -/
def start : Scan := ⟨.start, .between, []⟩

/-! ## Tokens -/

/-- The bare word of the collected characters. -/
def wordToken (start : Cursor) (text : List Char) : Token :=
  let word := String.ofList text.reverse
  ⟨.ofWord word, word, start.position⟩

/-- The string of the collected characters. -/
def stringToken (start : Cursor) (raw text : List Char) : Token :=
  ⟨.string (String.ofList text.reverse), String.ofList raw.reverse, start.position⟩

/-- The parenthesis `c` at the cursor. -/
def delimiter (cursor : Cursor) (kind : TokenKind) (c : Char) : Token :=
  ⟨kind, String.singleton c, cursor.position⟩

/-! ## Steps -/

/-- The mode and the tokens after the character `c`. -/
def transition (cursor : Cursor) (mode : Mode) (tokens : List Token) (c : Char) : Except LexError (Mode × List Token) :=
  match mode with
  | .between =>
    match LexicalClass.of c with
    | .space | .lineBreak => .ok (.between, tokens)
    | .hash => .ok (.comment, tokens)
    | .listOpen => .ok (.between, delimiter cursor .listOpen c :: tokens)
    | .listClose => .ok (.between, delimiter cursor .listClose c :: tokens)
    | .quote => .ok (.quoted cursor [c] [], tokens)
    | .backslash => .error (.misplacedChar c cursor.position)
    | .other => .ok (.word cursor [c], tokens)
  | .word start text =>
    match LexicalClass.of c with
    | .space | .lineBreak => .ok (.between, wordToken start text :: tokens)
    | .listOpen => .ok (.between, delimiter cursor .listOpen c :: wordToken start text :: tokens)
    | .listClose => .ok (.between, delimiter cursor .listClose c :: wordToken start text :: tokens)
    | .quote | .backslash | .hash => .error (.misplacedChar c cursor.position)
    | .other => .ok (.word start (c :: text), tokens)
  | .quoted start raw text =>
    match LexicalClass.of c with
    | .backslash => .ok (.escape start (c :: raw) text, tokens)
    | .quote => .ok (.between, stringToken start (c :: raw) text :: tokens)
    | _ => .ok (.quoted start (c :: raw) (c :: text), tokens)
  | .escape start raw text => .ok (.quoted start (c :: raw) (c :: text), tokens)
  | .comment =>
    match LexicalClass.of c with
    | .lineBreak => .ok (.between, tokens)
    | _ => .ok (.comment, tokens)

/-- Reads one character. -/
def step (s : Scan) (c : Char) : Except LexError Scan :=
  (transition s.cursor s.mode s.tokens c).map fun (mode, tokens) => ⟨s.cursor.advance c, mode, tokens⟩

/-- Reads characters one after the other. -/
def steps (s : Scan) (text : List Char) : Except LexError Scan := text.foldlM step s

/-- The tokens at the end of the text. -/
def finish (s : Scan) : Except LexError (List Token) :=
  match s.mode with
  | .between | .comment => .ok s.tokens.reverse
  | .word start text => .ok (wordToken start text :: s.tokens).reverse
  | .quoted .. | .escape .. => .error .unfinishedString

end Scan

namespace Token

/-- The tokens of a sequence of characters. -/
def scanChars (text : List Char) : Except LexError (List Token) := do
  (← Scan.start.steps text).finish

/-- The tokens of a text. -/
def scan (text : String) : Except LexError (List Token) := scanChars text.toList

end Token

end SExprLang
