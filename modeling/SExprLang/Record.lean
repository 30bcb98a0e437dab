import SExprLang.Diagnostic

/-!
# Records

Positions and diagnostics are exchanged as records of named fields. Fields that a record does not know are left aside; a
record may also be given as the sequence of its fields in order, which must then be complete.
-/

namespace SExprLang

/-- Structured data as it comes from outside. -/
inductive Datum where
  | null
  | natural (n : Nat)
  | text (text : String)
  | sequence (items : List Datum)
  | record (fields : List (String × Datum))
  /-- Anything that no field is ever made of: truth values, negative numbers and fractions. -/
  | other

namespace Datum

/-- One more than the greatest number that a line or a column can be. -/
def countLimit : Nat := 0x10000000000000000

/-- A line or a column. -/
def count? : Datum → Option Nat
  | natural n => if n < countLimit then some n else none
  | _ => none

/-- A line or a column that may be left open. -/
def openCount? : Datum → Option (Option Nat)
  | null => some none
  | datum => datum.count?.map some

/-- A text. -/
def text? : Datum → Option String
  | text content => some content
  | _ => none

/-- A stage: its name, or a record of nothing but that name. -/
def stage? : Datum → Option Stage
  | text name => Stage.ofName? name
  | record [(name, null)] => Stage.ofName? name
  | _ => none

/-- A position. -/
def position? : Datum → Option Position
  | record fields => do return ⟨← (← fields.lookup "line").count?, ← (← fields.lookup "column").count?⟩
  | sequence [line, column] => do return ⟨← line.count?, ← column.count?⟩
  | _ => none

/-- A diagnostic. Line and column may be missing from a record. -/
def diagnostic? : Datum → Option Diagnostic
  | record fields => do
    let stage ← (← fields.lookup "stage").stage?
    let message ← (← fields.lookup "message").text?
    let line ← ((fields.lookup "line").getD null).openCount?
    let column ← ((fields.lookup "column").getD null).openCount?
    return ⟨stage, message, line, column⟩
  | sequence [stage, message, line, column] => do
    return ⟨← stage.stage?, ← message.text?, ← line.openCount?, ← column.openCount?⟩
  | _ => none

end Datum

end SExprLang
