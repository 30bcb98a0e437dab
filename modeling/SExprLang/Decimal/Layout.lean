import SExprLang.Decimal.Shortest

/-!
# Writing numbers

The two notations of a number, both with the fewest digits that read back to it. The plain one never has an exponent
and writes whole numbers without a point; the detailed one keeps a zero after the point of whole numbers and changes to
an exponent for very large and very small magnitudes.
-/

namespace SExprLang

namespace Decimal

/-- How a number is laid out. -/
structure Style where
  /-- The scales that are written without an exponent. -/
  isPositional : Int → Bool
  /-- Whether a whole number written without an exponent ends in `.0`. -/
  pointZero : Bool

/-- Never an exponent, and whole numbers without a point. -/
def Style.plain : Style := ⟨fun _ => true, false⟩

/-- An exponent from `10 ^ 16` on and below `10 ^ -4`, and a point in every number without one. -/
def Style.detailed : Style := ⟨fun scale => decide (-3 ≤ scale) && decide (scale ≤ 16), true⟩

/-- Digits and zeros around a point, or none for a whole number. -/
def positional (pointZero : Bool) (d : Decimal) : List Char :=
  if 0 ≤ d.exponent then
    d.digitChars ++ List.replicate d.exponent.toNat '0' ++ (if pointZero then ['.', '0'] else [])
  else
    let places := (-d.exponent).toNat
    let padded := List.replicate (places + 1 - d.digitChars.length) '0' ++ d.digitChars
    padded.take (padded.length - places) ++ '.' :: padded.drop (padded.length - places)

/-- One digit, the others after a point, and the power of ten of the first. -/
def scientific (d : Decimal) : List Char :=
  let fraction := d.digitChars.drop 1
  d.digitChars.take 1 ++ (if fraction.isEmpty then [] else '.' :: fraction) ++ 'e' :: (toString (d.scale - 1)).toList

/-- A decimal in the given style. -/
def layout (style : Style) (d : Decimal) : List Char :=
  if style.isPositional d.scale then d.positional style.pointZero else d.scientific

end Decimal

namespace Double

/-- A number in the given style. What is not a number has no sign. -/
def write (style : Decimal.Style) (d : Double) : String :=
  if d.isNaN then "NaN"
  else
    let magnitude := if d.isInfinite then "inf".toList else (Decimal.shortest d.rank).layout style
    String.ofList (if d.negative then '-' :: magnitude else magnitude)

/-- The plain notation of a number. -/
def display (d : Double) : String := d.write .plain

/-- The detailed notation of a number. -/
def inspect (d : Double) : String := d.write .detailed

end Double

end SExprLang
