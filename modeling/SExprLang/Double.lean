/-!
# Double precision numbers

A `Double` is a sign and a *rank*, its place among the magnitudes: rank `0` is zero, the finite magnitudes follow in
increasing order, `infinityRank` is infinity and every rank above it is not a number. A finite magnitude is a whole
number of units of `2 ^ -1074`, which `unitsOfRank` gives, so that sums, products and comparisons are taken exactly
over the integers and only their result is rounded, to the nearest magnitude with ties to an even rank
(`rankOfQuotient`).
-/

namespace SExprLang

/-- A sign and the rank of a magnitude among all magnitudes. -/
structure Double where
  negative : Bool
  rank : Nat
  rank_lt : rank < 0x8000000000000000
deriving DecidableEq

namespace Double

/-! ## Ranks and units -/

/-- The number of ranks from a magnitude to its double, `2 ^ 52`. -/
abbrev octave : Nat := 0x10000000000000

/-- The rank of infinity, the first that is not finite. -/
def infinityRank : Nat := 0x7ff * octave

theorem infinityRank_lt : infinityRank < 0x8000000000000000 := by decide

/-- The number of units of `2 ^ -1074` that make up one. -/
def unitsOfOne : Nat := Nat.pow 2 1074

/-- The magnitude of a rank in units. The ranks of the first two octaves are one unit apart, and the distance doubles
with every octave from there on. -/
def unitsOfRank (rank : Nat) : Nat :=
  if rank < octave then rank else (octave + rank % octave) * Nat.pow 2 (rank / octave - 1)

/-- The quotient rounded to the nearest whole number, a half to the even one. -/
def roundHalfEven (num den : Nat) : Nat :=
  let quotient := num / den
  let twice := 2 * (num % den)
  if twice < den then quotient
  else if den < twice then quotient + 1
  else quotient + quotient % 2

/-- The rank of the magnitude nearest to `num / den` units, ties to the even rank, from half a step above the greatest
finite magnitude on that of infinity. -/
def rankOfQuotient (num den : Nat) : Nat :=
  let doublings := Nat.log2 (num / den) - 52
  min (doublings * octave + roundHalfEven num (den * Nat.pow 2 doublings)) infinityRank

theorem rankOfQuotient_lt (num den : Nat) : rankOfQuotient num den < 0x8000000000000000 :=
  Nat.lt_of_le_of_lt (Nat.min_le_right _ _) infinityRank_lt

/-- The double nearest to `num / den` units, with the given sign. -/
def ofQuotient (negative : Bool) (num den : Nat) : Double :=
  ⟨negative, rankOfQuotient num den, rankOfQuotient_lt num den⟩

/-! ## Bits -/

/-- The double whose 64 bits, read as a number, are `bits`: the sign first, the rank in the other 63. -/
def ofBits (bits : Nat) : Double :=
  ⟨decide (0x8000000000000000 ≤ bits % 0x10000000000000000), bits % 0x8000000000000000, Nat.mod_lt _ (by decide)⟩

/-- The 64 bits as a number. -/
def bits (d : Double) : Nat :=
  (if d.negative then 0x8000000000000000 else 0) + d.rank

/-! ## Particular values -/

def zero : Double := ⟨false, 0, by decide⟩

def one : Double := ⟨false, 0x3ff * octave, by decide⟩

def infinity : Double := ⟨false, infinityRank, infinityRank_lt⟩

/-- The result of operations that have no value. -/
def nan : Double := ⟨false, infinityRank + 0x8000000000000, by decide⟩

instance : Inhabited Double := ⟨zero⟩

/-! ## Classes -/

def isNaN (d : Double) : Bool := decide (infinityRank < d.rank)

def isInfinite (d : Double) : Bool := decide (d.rank = infinityRank)

def isZero (d : Double) : Bool := decide (d.rank = 0)

/-- The value in units with its sign. It orders the infinities too, beyond all finite values. -/
def toUnits (d : Double) : Int :=
  if d.negative then -(unitsOfRank d.rank : Int) else unitsOfRank d.rank

/-! ## Comparison -/

/-- Numeric equality: the two zeros are equal, and nothing equals a value that is not a number. -/
def numEq (a b : Double) : Bool :=
  !a.isNaN && !b.isNaN && decide (a.toUnits = b.toUnits)

/-- Numeric order, false whenever one side is not a number. -/
def numLt (a b : Double) : Bool :=
  !a.isNaN && !b.isNaN && decide (a.toUnits < b.toUnits)

/-! ## Arithmetic -/

/-- The opposite sign. -/
def neg (d : Double) : Double := { d with negative := !d.negative }

/-- The double nearest to a sum of units. An exact zero is positive, except that two negative zeros sum to one. -/
def ofUnits (negativeZero : Bool) (units : Int) : Double :=
  if units = 0 then ⟨negativeZero, 0, by decide⟩ else ofQuotient (decide (units < 0)) units.natAbs 1

/-- The nearest double to the exact sum. -/
def add (a b : Double) : Double :=
  if a.isNaN || b.isNaN then nan
  else if a.isInfinite then (if b.isInfinite && a.negative != b.negative then nan else a)
  else if b.isInfinite then b
  else ofUnits (a.negative && b.negative) (a.toUnits + b.toUnits)

/-- The nearest double to the exact product. -/
def mul (a b : Double) : Double :=
  let negative := a.negative != b.negative
  if a.isNaN || b.isNaN then nan
  else if a.isInfinite || b.isInfinite then
    (if a.isZero || b.isZero then nan else ⟨negative, infinityRank, infinityRank_lt⟩)
  else ofQuotient negative (unitsOfRank a.rank * unitsOfRank b.rank) unitsOfOne

instance : Add Double := ⟨add⟩
instance : Mul Double := ⟨mul⟩

/-! ## Integers and truth values -/

/-- The nearest double to an integer. -/
def ofInt (n : Int) : Double := ofUnits false (n * unitsOfOne)

/-- One for true and zero for false. -/
def ofBool (b : Bool) : Double := if b then one else zero

/-- The least and the greatest 64-bit integer. -/
def minInt64 : Int := -0x8000000000000000

@[inherit_doc minInt64]
def maxInt64 : Int := 0x7fffffffffffffff

/-- The value cut toward zero to a 64-bit integer. Values outside the range go to its nearer end, and what is not a
number goes to zero. -/
def toInt64 (d : Double) : Int :=
  if d.isNaN then 0 else max minInt64 (min maxInt64 (d.toUnits.tdiv unitsOfOne))

end Double

end SExprLang
