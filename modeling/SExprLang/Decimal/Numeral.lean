import SExprLang.Decimal

/-!
# Reading numerals

A numeral is an optional sign and then either one of the words `inf`, `infinity` and `nan`, in any case, or digits with
at most one point among them and an optional exponent. `Double.read?` gives the double nearest to what is written and
refuses everything else.
-/

namespace SExprLang

namespace Decimal

/-- The number that decimal digits denote. -/
def ofDigitChars (digits : List Char) : Nat :=
  digits.foldl (fun n c => 10 * n + (c.toNat - '0'.toNat)) 0

/-- A sign, `+` when there is none, and what follows it. -/
def splitSign : List Char → Bool × List Char
  | '-' :: rest => (true, rest)
  | '+' :: rest => (false, rest)
  | text => (false, text)

/-- An exponent part: nothing, or the mark `e` or `E`, an optional sign and at least one digit. -/
def exponent? : List Char → Option Int
  | [] => some 0
  | mark :: rest =>
    let (negative, digits) := splitSign rest
    if (mark = 'e' ∨ mark = 'E') ∧ digits ≠ [] ∧ digits.all Char.isDigit then
      let n := ofDigitChars digits
      some (if negative then -(n : Int) else n)
    else none

/-- The digits of a fraction after its point, and what follows them. -/
def splitFraction : List Char → List Char × List Char
  | '.' :: rest => rest.span Char.isDigit
  | text => ([], text)

/-- The double nearest to the digits, the last of which counts `10 ^ exponent`. A number of more than 310 places is
infinite and one that starts more than 330 places after the point is zero, without the power being taken. -/
def nearest (digits : List Char) (exponent : Int) : Double :=
  let significant := digits.dropWhile (· == '0')
  let scale : Int := significant.length + exponent
  if significant.isEmpty then .zero
  else if 310 < scale then .infinity
  else if scale < -330 then .zero
  else toDouble false ⟨ofDigitChars significant, exponent⟩

/-- A numeral in digits, without its sign. -/
def read? (text : List Char) : Option Double :=
  let (whole, rest) := text.span Char.isDigit
  let (fraction, rest) := splitFraction rest
  if whole.isEmpty && fraction.isEmpty then none
  else (exponent? rest).map fun exponent => nearest (whole ++ fraction) (exponent - fraction.length)

end Decimal

namespace Double

/-- The words for values that have no digits. -/
def word? (text : List Char) : Option Double :=
  let lower := text.map Char.toLower
  if lower = "inf".toList ∨ lower = "infinity".toList then some infinity
  else if lower = "nan".toList then some nan
  else none

/-- The double that a numeral denotes. -/
def readChars? (text : List Char) : Option Double :=
  let (negative, magnitude) := Decimal.splitSign text
  let value := (word? magnitude).or (Decimal.read? magnitude)
  if negative then value.map neg else value

@[inherit_doc readChars?]
def read? (text : String) : Option Double := readChars? text.toList

end Double

end SExprLang
