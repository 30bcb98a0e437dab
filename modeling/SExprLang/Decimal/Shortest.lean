import SExprLang.Decimal

/-!
# The shortest decimal that identifies a double

The decimals that round to a magnitude fill the interval between the midpoints to its two neighbours, ends included
exactly for an even rank. `Decimal.shortest` looks for a decimal of as few digits as possible in it: for one digit, two
digits and so on it tries the two multiples of the power of ten around the magnitude, and takes the nearer one if both
lie in the interval.
-/

namespace SExprLang

namespace Decimal

/-- The greatest number of digits that is ever needed. -/
def maxDigits : Nat := 17

/-- Whether `count` steps of `10 ^ exponent` round to the magnitude of `rank`. The interval is compared in half units,
so that its ends are whole numbers. -/
def identifies (rank : Nat) (count : Nat) (exponent : Int) : Bool :=
  let low := (Double.unitsOfRank (rank - 1) + Double.unitsOfRank rank) * tenDen exponent
  let high := (Double.unitsOfRank rank + Double.unitsOfRank (rank + 1)) * tenDen exponent
  let tried := 2 * count * (Double.unitsOfOne * tenNum exponent)
  if rank % 2 = 0 then decide (low ≤ tried) && decide (tried ≤ high) else decide (low < tried) && decide (tried < high)

/-- The nearest multiple of `10 ^ exponent` to the magnitude of `rank` that identifies it, if its neighbours there do.
A magnitude halfway between two of them goes to the greater one. -/
def onGrid? (rank : Nat) (exponent : Int) : Option Nat :=
  let num := Double.unitsOfRank rank * tenDen exponent
  let den := Double.unitsOfOne * tenNum exponent
  let below := num / den
  let above := below + 1
  match identifies rank below exponent, identifies rank above exponent with
  | true, true => some (if 2 * (num % den) < den then below else above)
  | true, false => some below
  | false, true => some above
  | false, false => none

/-- The scale of a magnitude: the magnitude lies from `10 ^ (scale - 1)` to below `10 ^ scale`. No magnitude other than
zero starts more than 400 places after the point. -/
def scaleOfRank (rank : Nat) : Int :=
  (Nat.toDigits 10 (Double.unitsOfRank rank * Nat.pow 10 400 / Double.unitsOfOne)).length - 400

/-- A decimal without the zero that ends its digits when they have been rounded up to a power of ten. -/
def trimPower (digits : Nat) (count : Nat) (exponent : Int) : Decimal :=
  if digits = Nat.pow 10 count then ⟨1, exponent + count⟩ else ⟨digits, exponent⟩

/-- The magnitude written out in full: a unit is `5 ^ 1074 * 10 ^ -1074`. -/
def exact (rank : Nat) : Decimal := ⟨Double.unitsOfRank rank * Nat.pow 5 1074, -1074⟩

/-- A decimal of `count` digits or more that identifies the magnitude, trying up to `steps` further digit counts. -/
def search (rank : Nat) (scale : Int) : (steps count : Nat) → Decimal
  | 0, _ => exact rank
  | steps + 1, count =>
    match onGrid? rank (scale - count) with
    | some digits => trimPower digits count (scale - count)
    | none => search rank scale steps (count + 1)

/-- The decimal with the fewest digits that rounds to the magnitude of a finite rank, and the nearest to it among
those. -/
def shortest (rank : Nat) : Decimal :=
  if rank = 0 then ⟨0, 0⟩ else search rank (scaleOfRank rank) maxDigits 1

end Decimal

end SExprLang
