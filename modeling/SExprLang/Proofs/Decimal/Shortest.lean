import SExprLang.Decimal.Shortest
import SExprLang.Proofs.Double.Arithmetic

/-!
# Decimals that identify a magnitude

A decimal identifies a magnitude if it is in the interval of what rounds to it (`Decimal.RoundsTo`). Whatever the search
for a short decimal comes to, and also if it comes to nothing and the magnitude is written out in full, the result
identifies the magnitude (`shortest_roundsTo`).
-/

namespace SExprLang

/-- Whether a quotient rounds to a rank is a matter of its value. -/
theorem Double.RoundsTo.of_eq {num den num' den' rank : Nat} (h : RoundsTo num den rank) (hden : 0 < den)
    (hden' : 0 < den') (heq : num * den' = num' * den) : RoundsTo num' den' rank := by
  have hle : ∀ a, a * den' ≤ 2 * num' ↔ a * den ≤ 2 * num := by
    intro a
    calc a * den' ≤ 2 * num' ↔ a * den' * den ≤ 2 * num' * den := (Nat.mul_le_mul_right_iff hden).symm
      _ ↔ a * den * den' ≤ 2 * num * den' := by
        rw [Nat.mul_right_comm, Nat.mul_assoc 2 num', ← heq, ← Nat.mul_assoc]
      _ ↔ a * den ≤ 2 * num := Nat.mul_le_mul_right_iff hden'
  have hge : ∀ a, 2 * num' ≤ a * den' ↔ 2 * num ≤ a * den := by
    intro a
    calc 2 * num' ≤ a * den' ↔ 2 * num' * den ≤ a * den' * den := (Nat.mul_le_mul_right_iff hden).symm
      _ ↔ 2 * num * den' ≤ a * den * den' := by
        rw [Nat.mul_right_comm a, Nat.mul_assoc 2 num', ← heq, ← Nat.mul_assoc]
      _ ↔ 2 * num ≤ a * den := Nat.mul_le_mul_right_iff hden'
  refine ⟨(hle _).2 h.low, (hge _).2 h.high, fun hodd => ?_⟩
  obtain ⟨hlow, hhigh⟩ := h.odd hodd
  exact ⟨Nat.lt_of_not_le fun hle' => Nat.not_le.2 hlow ((hge _).1 hle'),
    Nat.lt_of_not_le fun hle' => Nat.not_le.2 hhigh ((hle _).1 hle')⟩

namespace Decimal

/-! ## Powers of ten -/

theorem tenNum_eq (exponent : Int) : tenNum exponent = 10 ^ exponent.toNat := Nat.pow_eq

theorem tenDen_eq (exponent : Int) : tenDen exponent = 10 ^ (-exponent).toNat := Nat.pow_eq

theorem tenNum_pos (exponent : Int) : 0 < tenNum exponent := by
  rw [tenNum_eq]
  exact Nat.pow_pos (by decide)

theorem tenDen_pos (exponent : Int) : 0 < tenDen exponent := by
  rw [tenDen_eq]
  exact Nat.pow_pos (by decide)

/-- Zeros at the end of the digits count as much in the exponent. -/
theorem tenNum_shift (exponent : Int) (count : Nat) :
    10 ^ count * tenNum exponent * tenDen (exponent + count) = tenNum (exponent + count) * tenDen exponent := by
  rw [tenNum_eq, tenNum_eq, tenDen_eq, tenDen_eq, ← Nat.pow_add, ← Nat.pow_add, ← Nat.pow_add]
  congr 1
  omega

/-! ## Decimals in the interval of a magnitude -/

/-- The decimal is in the interval of what rounds to the magnitude of the rank. -/
def RoundsTo (d : Decimal) (rank : Nat) : Prop :=
  Double.RoundsTo (d.digits * tenNum d.exponent * Double.unitsOfOne) (tenDen d.exponent) rank

/-- A decimal denotes the double of the rank whose interval it is in. -/
theorem RoundsTo.toDouble_eq {d : Decimal} {rank : Nat} (h : d.RoundsTo rank) (hle : rank ≤ Double.infinityRank)
    (negative : Bool) : d.toDouble negative = ⟨negative, rank, Nat.lt_of_le_of_lt hle Double.infinityRank_lt⟩ :=
  Double.ofQuotient_eq (tenDen_pos _) h hle

/-- Digits with zeros at the end may be written without them. -/
theorem RoundsTo.shift {digits : Nat} {exponent : Int} {rank : Nat} (count : Nat) :
    RoundsTo ⟨digits * 10 ^ count, exponent⟩ rank ↔ RoundsTo ⟨digits, exponent + count⟩ rank := by
  have heq : ∀ unit, digits * 10 ^ count * tenNum exponent * unit * tenDen (exponent + count) =
      digits * tenNum (exponent + count) * unit * tenDen exponent := by
    intro unit
    calc digits * 10 ^ count * tenNum exponent * unit * tenDen (exponent + count)
        = digits * unit * (10 ^ count * tenNum exponent * tenDen (exponent + count)) := by ac_rfl
      _ = digits * unit * (tenNum (exponent + count) * tenDen exponent) := by rw [tenNum_shift]
      _ = digits * tenNum (exponent + count) * unit * tenDen exponent := by ac_rfl
  exact ⟨fun h => h.of_eq (tenDen_pos _) (tenDen_pos _) (heq _),
    fun h => h.of_eq (tenDen_pos _) (tenDen_pos _) (heq _).symm⟩

/-! ## The search -/

variable {rank : Nat}

theorem roundsTo_of_identifies {count : Nat} {exponent : Int} (h : identifies rank count exponent = true) :
    RoundsTo ⟨count, exponent⟩ rank := by
  have htried : ∀ unit, 2 * count * (unit * tenNum exponent) = 2 * (count * tenNum exponent * unit) :=
    fun unit => by ac_rfl
  unfold identifies at h
  dsimp only at h
  rw [htried] at h
  split at h
  · rename_i heven
    simp only [Bool.and_eq_true, decide_eq_true_eq] at h
    exact ⟨h.1, h.2, fun hodd => absurd hodd (by omega)⟩
  · simp only [Bool.and_eq_true, decide_eq_true_eq] at h
    exact ⟨h.1.le, h.2.le, fun _ => h⟩

theorem roundsTo_of_onGrid? {exponent : Int} {count : Nat} (h : onGrid? rank exponent = some count) :
    RoundsTo ⟨count, exponent⟩ rank := by
  apply roundsTo_of_identifies
  unfold onGrid? at h
  dsimp only at h
  split at h
  · rename_i hbelow habove
    obtain rfl := Option.some.inj h
    split
    · exact hbelow
    · exact habove
  · rename_i hbelow _
    exact Option.some.inj h ▸ hbelow
  · rename_i _ habove
    exact Option.some.inj h ▸ habove
  · cases h

theorem RoundsTo.trimPower {digits : Nat} {exponent : Int} (h : RoundsTo ⟨digits, exponent⟩ rank) (count : Nat) :
    (Decimal.trimPower digits count exponent).RoundsTo rank := by
  unfold Decimal.trimPower
  split
  · rename_i hpower
    rw [hpower, Nat.pow_eq, ← Nat.one_mul (10 ^ count)] at h
    exact (RoundsTo.shift count).1 h
  · exact h

/-- The magnitude itself, written out in full. -/
theorem exact_roundsTo (rank : Nat) : (exact rank).RoundsTo rank := by
  obtain ⟨places, hplaces⟩ : ∃ places, places = 1074 := ⟨_, rfl⟩
  have hexponent : (exact rank).exponent = -(places : Int) := by
    rw [hplaces]
    rfl
  have hdigits : (exact rank).digits = Double.unitsOfRank rank * 5 ^ places := by
    delta exact
    dsimp only
    rw [← hplaces, Nat.pow_eq]
  have hnum : tenNum (-(places : Int)) = 1 := by
    rw [tenNum_eq, show (-(places : Int)).toNat = 0 by omega, Nat.pow_zero]
  have hden : tenDen (-(places : Int)) = 5 ^ places * 2 ^ places := by
    rw [tenDen_eq, Int.neg_neg, Int.toNat_natCast, ← Nat.mul_pow]
  have hrounds := Double.RoundsTo.exact rank (tenDen_pos (-(places : Int)))
  unfold RoundsTo
  rwa [hexponent, hdigits, hnum, Nat.mul_one, Double.unitsOfOne_eq hplaces, Nat.mul_assoc, ← hden]

theorem search_roundsTo (rank : Nat) (scale : Int) (steps count : Nat) : (search rank scale steps count).RoundsTo rank := by
  induction steps generalizing count with
  | zero => exact exact_roundsTo rank
  | succ steps ih =>
    unfold search
    split
    · rename_i hgrid
      exact (roundsTo_of_onGrid? hgrid).trimPower count
    · exact ih (count + 1)

/-- **The decimal that is written for a magnitude identifies it.** -/
theorem shortest_roundsTo (rank : Nat) : (shortest rank).RoundsTo rank := by
  unfold shortest
  split
  · rename_i hzero
    have hrounds := Double.RoundsTo.exact 0 (tenDen_pos 0)
    rw [Double.unitsOfRank_zero, Nat.zero_mul] at hrounds
    unfold RoundsTo
    rwa [hzero, Nat.zero_mul, Nat.zero_mul]
  · exact search_roundsTo rank _ maxDigits 1

end Decimal

end SExprLang
