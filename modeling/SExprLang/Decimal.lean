import SExprLang.Double

/-!
# Decimals

A `Decimal` is `digits * 10 ^ exponent`. `Decimal.toDouble` is the double nearest to it, in exact arithmetic.
-/

namespace SExprLang

/-- The number `digits * 10 ^ exponent`. -/
structure Decimal where
  digits : Nat
  exponent : Int
deriving DecidableEq

namespace Decimal

/-- The numerator of `10 ^ exponent` as a fraction. -/
def tenNum (exponent : Int) : Nat := Nat.pow 10 exponent.toNat

/-- The denominator of `10 ^ exponent` as a fraction. -/
def tenDen (exponent : Int) : Nat := Nat.pow 10 (-exponent).toNat

/-- The nearest double, with the given sign. -/
def toDouble (negative : Bool) (d : Decimal) : Double :=
  Double.ofQuotient negative (d.digits * tenNum d.exponent * Double.unitsOfOne) (tenDen d.exponent)

/-- The decimal notation of the digits. -/
def digitChars (d : Decimal) : List Char := Nat.toDigits 10 d.digits

/-- The number of digits before the point when the decimal is written out, negative for zeros after the point: a decimal
other than zero lies from `10 ^ (scale - 1)` to below `10 ^ scale`. -/
def scale (d : Decimal) : Int := d.digitChars.length + d.exponent

end Decimal

end SExprLang
