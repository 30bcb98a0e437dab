import SExprLang.Proofs.Double.Rounding

/-!
# Exact arithmetic

A result that is a magnitude is not changed by rounding. So the integers of at most 53 bits are doubles
(`toUnits_ofInt`), and they are added and compared as integers; one is neutral for products (`one_mul`).
-/

namespace SExprLang.Double

/-- One is a power of two in units. The exponent stays a variable, so that the power is not computed. -/
theorem unitsOfOne_eq {doublings : Nat} (h : doublings = 1074) : unitsOfOne = 2 ^ doublings := by
  delta unitsOfOne
  rw [← h, Nat.pow_eq]

theorem unitsOfOne_pos : 0 < unitsOfOne := by
  obtain ⟨doublings, h⟩ : ∃ doublings, doublings = 1074 := ⟨_, rfl⟩
  rw [unitsOfOne_eq h]
  exact Nat.two_pow_pos doublings

theorem ofQuotient_eq {negative : Bool} {num den rank : Nat} (hden : 0 < den) (h : RoundsTo num den rank)
    (hle : rank ≤ infinityRank) :
    ofQuotient negative num den = ⟨negative, rank, Nat.lt_of_le_of_lt hle infinityRank_lt⟩ := by
  unfold ofQuotient
  simp only [rankOfQuotient_eq hden h hle]

theorem isNaN_ofQuotient (negative : Bool) (num den : Nat) : (ofQuotient negative num den).isNaN = false :=
  decide_eq_false (Nat.not_lt_of_le (Nat.min_le_right _ _))

/-! ## Integers -/

variable {m n : Int}

/-- An integer of at most 53 bits is a finite double of its value. -/
theorem ofInt_fields (h : n.natAbs ≤ 2 * octave) :
    (ofInt n).negative = decide (n < 0) ∧ unitsOfRank (ofInt n).rank = n.natAbs * unitsOfOne ∧
      (ofInt n).rank < infinityRank := by
  by_cases hzero : n = 0
  · subst hzero
    decide +kernel
  · obtain ⟨doublings, hdoublings⟩ : ∃ doublings, doublings = 1074 := ⟨_, rfl⟩
    obtain ⟨rank, hunits, hle⟩ := exists_rank doublings h
    rw [← unitsOfOne_eq hdoublings] at hunits
    have hlt : rank < infinityRank := Nat.lt_of_le_of_lt hle (by rw [hdoublings]; decide)
    have hsign : n * (unitsOfOne : Int) < 0 ↔ n < 0 :=
      ⟨fun hneg => Int.not_le.1 fun hpos => Int.not_le.2 hneg (Int.mul_nonneg hpos (Int.natCast_nonneg _)),
        fun hneg => Int.mul_neg_of_neg_of_pos hneg (Int.natCast_pos.2 unitsOfOne_pos)⟩
    have hrounds : RoundsTo (n * (unitsOfOne : Int)).natAbs 1 rank := by
      have hexact := RoundsTo.exact rank Nat.one_pos
      rwa [Nat.mul_one, hunits, ← Int.natAbs_natCast unitsOfOne, ← Int.natAbs_mul] at hexact
    have hne : n * (unitsOfOne : Int) ≠ 0 := Int.mul_ne_zero hzero (Int.natCast_ne_zero.2 unitsOfOne_pos.ne')
    rw [ofInt, ofUnits, if_neg hne, ofQuotient_eq Nat.one_pos hrounds hlt.le]
    exact ⟨decide_eq_decide.2 hsign, hunits, hlt⟩

theorem toUnits_ofInt (h : n.natAbs ≤ 2 * octave) : (ofInt n).toUnits = n * unitsOfOne := by
  obtain ⟨hsign, hunits, _⟩ := ofInt_fields h
  unfold toUnits
  rw [hsign, hunits, Int.natCast_mul]
  by_cases hneg : n < 0
  · rw [if_pos (decide_eq_true hneg), ← Int.neg_mul, Int.ofNat_natAbs_of_nonpos hneg.le, Int.neg_neg]
  · rw [if_neg (by simpa using hneg), Int.natAbs_of_nonneg (Int.not_lt.1 hneg)]

theorem isNaN_ofInt (h : n.natAbs ≤ 2 * octave) : (ofInt n).isNaN = false :=
  decide_eq_false (Nat.not_lt_of_lt (ofInt_fields h).2.2)

theorem isInfinite_ofInt (h : n.natAbs ≤ 2 * octave) : (ofInt n).isInfinite = false :=
  decide_eq_false (Nat.ne_of_lt (ofInt_fields h).2.2)

/-- Integers of at most 53 bits are added as integers. -/
theorem ofInt_add (hm : m.natAbs ≤ 2 * octave) (hn : n.natAbs ≤ 2 * octave) : ofInt m + ofInt n = ofInt (m + n) := by
  show add (ofInt m) (ofInt n) = _
  unfold add
  rw [isNaN_ofInt hm, isNaN_ofInt hn, isInfinite_ofInt hm, isInfinite_ofInt hn, toUnits_ofInt hm, toUnits_ofInt hn,
    ← Int.add_mul, (ofInt_fields hm).1, (ofInt_fields hn).1]
  simp only [Bool.or_self, Bool.false_eq_true, if_false]
  unfold ofInt ofUnits
  split
  · -- Of two integers that sum to zero not both are negative.
    rename_i hzero
    have hsum : m + n = 0 := (Int.mul_eq_zero.1 hzero).resolve_right (Int.natCast_ne_zero.2 unitsOfOne_pos.ne')
    have : (decide (m < 0) && decide (n < 0)) = false := by
      rw [Bool.and_eq_false_iff, decide_eq_false_iff_not, decide_eq_false_iff_not]
      omega
    simp only [this]
  · rfl

/-- They are compared as integers. -/
theorem ofInt_numLt (hm : m.natAbs ≤ 2 * octave) (hn : n.natAbs ≤ 2 * octave) :
    (ofInt m).numLt (ofInt n) = decide (m < n) := by
  unfold numLt
  rw [isNaN_ofInt hm, isNaN_ofInt hn, toUnits_ofInt hm, toUnits_ofInt hn]
  simp only [Bool.not_false, Bool.true_and]
  exact decide_eq_decide.2 (Int.mul_lt_mul_right (Int.natCast_pos.2 unitsOfOne_pos))

/-- They come back from 64-bit integers as they were. -/
theorem toInt64_ofInt (h : n.natAbs ≤ 2 * octave) : (ofInt n).toInt64 = n := by
  unfold toInt64
  rw [isNaN_ofInt h, toUnits_ofInt h, Int.mul_tdiv_cancel _ (Int.natCast_ne_zero.2 unitsOfOne_pos.ne')]
  unfold octave minInt64 maxInt64 at *
  simp only [Bool.false_eq_true, if_false]
  omega

theorem ofInt_zero : ofInt 0 = zero := by decide +kernel

theorem ofInt_one : ofInt 1 = one := by decide +kernel

/-! ## Products -/

protected theorem mul_comm (a b : Double) : a * b = b * a := by
  show mul a b = mul b a
  unfold mul
  simp only [Bool.or_comm b.isNaN, Bool.or_comm b.isInfinite, Bool.or_comm b.isZero, Nat.mul_comm (unitsOfRank b.rank),
    bne_comm]

/-- A product that is not a number is the one that operations give. -/
theorem eq_nan_of_isNaN_mul {a b : Double} (h : (a * b).isNaN = true) : a * b = nan := by
  change (mul a b).isNaN = true at h
  show mul a b = nan
  unfold mul at *
  dsimp only at *
  split
  · rfl
  · rename_i hnumber
    rw [if_neg hnumber] at h
    split
    · rename_i hinfinite
      rw [if_pos hinfinite] at h
      split
      · rfl
      · rename_i hzero
        rw [if_neg hzero] at h
        simp [isNaN] at h
    · rename_i hfinite
      rw [if_neg hfinite, isNaN_ofQuotient] at h
      cases h

/-- One is neutral for numbers and for what operations give in place of one. -/
protected theorem one_mul {a : Double} (h : a.isNaN = true → a = nan) : one * a = a := by
  by_cases hnan : a.isNaN = true
  · rw [h hnan]
    decide +kernel
  · show mul one a = a
    have hone : one.isNaN = false ∧ one.isInfinite = false ∧ one.isZero = false ∧ unitsOfRank one.rank = unitsOfOne := by
      decide +kernel
    obtain ⟨honeNaN, honeInfinite, honeZero, hunits⟩ := hone
    unfold mul
    dsimp only
    rw [honeNaN, honeInfinite, honeZero, hunits, Bool.false_or, Bool.false_or, Bool.false_or, if_neg hnan]
    have hrank : a.rank ≤ infinityRank := Nat.le_of_not_lt fun hlt => hnan (decide_eq_true hlt)
    have hsign : (one.negative != a.negative) = a.negative := Bool.false_bne _
    split
    · rename_i hinfinite
      have hrank : a.rank = infinityRank := of_decide_eq_true hinfinite
      have hzero : ¬ a.isZero = true := by
        unfold isZero
        rw [hrank]
        decide
      rw [if_neg hzero, hsign]
      simp only [← hrank]
    · have hrounds := RoundsTo.exact a.rank unitsOfOne_pos
      rw [Nat.mul_comm] at hrounds
      rw [ofQuotient_eq unitsOfOne_pos hrounds hrank, hsign]

end SExprLang.Double
