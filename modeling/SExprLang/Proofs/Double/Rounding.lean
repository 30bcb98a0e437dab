import Mathlib.Algebra.Group.Nat.Defs
import Mathlib.Order.Monotone.Basic
import SExprLang.Double

/-!
# Rounding to the nearest magnitude

The magnitudes increase with their ranks, and within an octave they are a power of two apart (`unitsOfRank_succ`). The
quotients that round to a magnitude fill the interval between the midpoints to its two neighbours, ends included exactly
for an even rank (`RoundsTo`). No quotient is in the intervals of two ranks (`RoundsTo.unique`), so it is enough to know
the interval of a quotient to know its rank (`rankOfQuotient_eq`).
-/

namespace SExprLang.Double

/-! ## Ranks and units -/

/-- A rank as so many doublings and a whole number of steps: below the second octave a step is a unit. -/
theorem unitsOfRank_eq (doublings : Nat) {steps : Nat} (hle : steps ≤ 2 * octave) (h : doublings = 0 ∨ octave ≤ steps) :
    unitsOfRank (doublings * octave + steps) = steps * 2 ^ doublings := by
  unfold unitsOfRank
  rw [Nat.pow_eq]
  unfold octave at *
  by_cases htop : steps = 0x20000000000000
  · -- The last rank of one octave is the first of the next.
    have hdiv : (doublings * 0x10000000000000 + steps) / 0x10000000000000 = doublings + 2 := by omega
    have hmod : (doublings * 0x10000000000000 + steps) % 0x10000000000000 = 0 := by omega
    rw [if_neg (by omega), hdiv, hmod, htop, show doublings + 2 - 1 = doublings + 1 from rfl, Nat.pow_succ]
    omega
  · by_cases hfirst : steps < 0x10000000000000
    · have hzero : doublings = 0 := by omega
      rw [hzero, Nat.zero_mul, Nat.zero_add, if_pos hfirst, Nat.pow_zero, Nat.mul_one]
    · have hdiv : (doublings * 0x10000000000000 + steps) / 0x10000000000000 = doublings + 1 := by omega
      have hmod : (doublings * 0x10000000000000 + steps) % 0x10000000000000 = steps - 0x10000000000000 := by omega
      rw [if_neg (by omega), hdiv, hmod, show doublings + 1 - 1 = doublings from rfl, Nat.add_sub_cancel' (by omega)]

/-- The distance from a magnitude to the next one. -/
theorem unitsOfRank_succ (rank : Nat) : unitsOfRank (rank + 1) = unitsOfRank rank + 2 ^ (rank / octave - 1) := by
  obtain ⟨steps, hrank⟩ : ∃ steps, rank = (rank / octave - 1) * octave + steps :=
    ⟨rank - (rank / octave - 1) * octave, by unfold octave; omega⟩
  have hlt : steps < 2 * octave := by unfold octave at *; omega
  have hsteps : rank / octave - 1 = 0 ∨ octave ≤ steps := by unfold octave at *; omega
  generalize rank / octave - 1 = doublings at *
  rw [hrank, unitsOfRank_eq doublings hlt.le hsteps, Nat.add_assoc, unitsOfRank_eq doublings hlt (by omega), Nat.succ_mul]

theorem unitsOfRank_strictMono : StrictMono unitsOfRank := by
  apply strictMono_nat_of_lt_succ
  intro rank
  rw [unitsOfRank_succ]
  exact Nat.lt_add_of_pos_right (Nat.two_pow_pos _)

theorem unitsOfRank_zero : unitsOfRank 0 = 0 := rfl

/-- The next magnitude is at least a step away. -/
theorem le_unitsOfRank_succ (doublings : Nat) {steps : Nat} (hle : steps ≤ 2 * octave)
    (h : doublings = 0 ∨ octave ≤ steps) : (steps + 1) * 2 ^ doublings ≤ unitsOfRank (doublings * octave + steps + 1) := by
  have hdoublings : doublings ≤ (doublings * octave + steps) / octave - 1 := by unfold octave at *; omega
  rw [unitsOfRank_succ, unitsOfRank_eq doublings hle h, Nat.succ_mul]
  exact Nat.add_le_add_left (Nat.pow_le_pow_right (by decide) hdoublings) _

/-- The magnitude before is a step away inside an octave. -/
theorem unitsOfRank_pred (doublings : Nat) {steps : Nat} (hpos : 0 < steps) (hle : steps ≤ 2 * octave)
    (h : doublings = 0 ∨ octave < steps) : unitsOfRank (doublings * octave + steps - 1) = (steps - 1) * 2 ^ doublings := by
  rw [Nat.add_sub_assoc hpos]
  exact unitsOfRank_eq doublings (Nat.le_trans (Nat.sub_le _ _) hle) (by omega)

/-- A whole number of at most 53 bits times a power of two is a magnitude. -/
theorem exists_rank (doublings : Nat) {steps : Nat} (h : steps ≤ 2 * octave) :
    ∃ rank, unitsOfRank rank = steps * 2 ^ doublings ∧ rank ≤ doublings * octave + 2 * octave := by
  induction doublings generalizing steps with
  | zero =>
    have hunits := unitsOfRank_eq 0 h (Or.inl rfl)
    rw [Nat.zero_mul, Nat.zero_add] at hunits
    exact ⟨steps, hunits, by omega⟩
  | succ doublings ih =>
    by_cases hsteps : octave ≤ steps
    · have hunits := unitsOfRank_eq (doublings + 1) h (Or.inr hsteps)
      exact ⟨_, hunits, Nat.add_le_add_left h _⟩
    · have hdouble : 2 * steps ≤ 2 * octave := Nat.mul_le_mul_left 2 (Nat.le_of_not_le hsteps)
      obtain ⟨rank, hunits, hle⟩ := ih hdouble
      refine ⟨rank, ?_, Nat.le_trans hle (Nat.add_le_add_right (Nat.mul_le_mul_right _ (Nat.le_succ doublings)) _)⟩
      rw [hunits, Nat.pow_succ, Nat.mul_comm 2 steps, Nat.mul_assoc, Nat.mul_comm 2]

/-! ## The nearest whole number -/

/-- A rounded quotient is within one half, and less if it is odd. -/
theorem roundHalfEven_bounds (num : Nat) {den : Nat} (hden : 0 < den) :
    2 * (roundHalfEven num den * den) ≤ 2 * num + den ∧ 2 * num ≤ 2 * (roundHalfEven num den * den) + den ∧
      (roundHalfEven num den % 2 = 1 → 2 * (roundHalfEven num den * den) < 2 * num + den ∧
        2 * num < 2 * (roundHalfEven num den * den) + den) := by
  have hsplit := Nat.div_add_mod num den
  have hmod := Nat.mod_lt num hden
  have hup : (num / den + 1) * den = den * (num / den) + den := by rw [Nat.succ_mul, Nat.mul_comm]
  have hdown : num / den * den = den * (num / den) := Nat.mul_comm _ _
  unfold roundHalfEven
  dsimp only
  split
  · rw [hdown]
    omega
  · split
    · rw [hup]
      omega
    · rcases Nat.mod_two_eq_zero_or_one (num / den) with heven | hodd
      · rw [heven, Nat.add_zero, hdown]
        omega
      · rw [hodd, hup]
        omega

/-! ## Rounding intervals -/

/-- `num / den` units lie between the midpoints from the magnitude of the rank to its neighbours, and not on one of them
if the rank is odd. -/
structure RoundsTo (num den rank : Nat) : Prop where
  low : (unitsOfRank (rank - 1) + unitsOfRank rank) * den ≤ 2 * num
  high : 2 * num ≤ (unitsOfRank rank + unitsOfRank (rank + 1)) * den
  odd : rank % 2 = 1 → (unitsOfRank (rank - 1) + unitsOfRank rank) * den < 2 * num ∧
    2 * num < (unitsOfRank rank + unitsOfRank (rank + 1)) * den

namespace RoundsTo

variable {num den rank rank' : Nat}

/-- The interval of a rank ends where that of a greater one has not begun. -/
theorem not_lt (hden : 0 < den) (h : RoundsTo num den rank) (h' : RoundsTo num den rank') : ¬ rank < rank' := by
  intro hlt
  rcases Nat.lt_or_eq_of_le (Nat.succ_le_of_lt hlt) with hfar | hnext
  · have hbelow : unitsOfRank rank < unitsOfRank (rank' - 1) := unitsOfRank_strictMono (by omega)
    have habove : unitsOfRank (rank + 1) < unitsOfRank rank' := unitsOfRank_strictMono hfar
    have hends := Nat.mul_lt_mul_of_pos_right (Nat.add_lt_add hbelow habove) hden
    have := h.high
    have := h'.low
    omega
  · -- Neighbours share an end, which is not in the interval of the odd one.
    obtain rfl : rank' = rank + 1 := hnext.symm
    have hhigh := h.high
    have hlow := h'.low
    have hodd := h.odd
    have hodd' := h'.odd
    simp only [Nat.add_sub_cancel] at hlow hodd'
    rcases Nat.mod_two_eq_zero_or_one rank with heven | hrank
    · have := hodd' (by omega)
      omega
    · have := hodd hrank
      omega

theorem unique (hden : 0 < den) (h : RoundsTo num den rank) (h' : RoundsTo num den rank') : rank = rank' :=
  Nat.le_antisymm (Nat.le_of_not_lt (h'.not_lt hden h)) (Nat.le_of_not_lt (h.not_lt hden h'))

/-- A magnitude is in its own interval, however the quotient is written. -/
theorem exact (rank : Nat) (hden : 0 < den) : RoundsTo (unitsOfRank rank * den) den rank := by
  have hle : unitsOfRank (rank - 1) ≤ unitsOfRank rank := unitsOfRank_strictMono.monotone (Nat.sub_le rank 1)
  have hlt : unitsOfRank rank < unitsOfRank (rank + 1) := unitsOfRank_strictMono (Nat.lt_succ_self rank)
  have hhigh := Nat.mul_lt_mul_of_pos_right hlt hden
  refine ⟨?_, ?_, fun hodd => ⟨?_, ?_⟩⟩
  · rw [Nat.add_mul]
    have := Nat.mul_le_mul_right den hle
    omega
  · rw [Nat.add_mul]
    omega
  · have hbelow : unitsOfRank (rank - 1) < unitsOfRank rank := unitsOfRank_strictMono (by omega)
    rw [Nat.add_mul]
    have := Nat.mul_lt_mul_of_pos_right hbelow hden
    omega
  · rw [Nat.add_mul]
    omega

/-- What rounds to a finite magnitude is not above infinity. -/
theorem num_le (h : RoundsTo num den rank) (hlt : rank < infinityRank) : num ≤ unitsOfRank infinityRank * den := by
  have hrank : unitsOfRank rank ≤ unitsOfRank infinityRank := unitsOfRank_strictMono.monotone hlt.le
  have hnext : unitsOfRank (rank + 1) ≤ unitsOfRank infinityRank := unitsOfRank_strictMono.monotone hlt
  have hends := Nat.mul_le_mul_right den (Nat.add_le_add hrank hnext)
  have := h.high
  rw [Nat.add_mul (unitsOfRank infinityRank)] at hends
  omega

/-- What rounds to a magnitude other than zero is at least half a unit. -/
theorem den_le (h : RoundsTo num den rank) (hpos : 0 < rank) : den ≤ 2 * num := by
  have hunits : 0 < unitsOfRank rank := Nat.lt_of_le_of_lt (Nat.zero_le _) (unitsOfRank_strictMono hpos)
  exact Nat.le_trans (Nat.le_mul_of_pos_left den (Nat.add_pos_right _ hunits)) h.low

end RoundsTo

/-! ## The rank of a quotient -/

/-- The number of doublings that bring a quotient to between 52 and 53 bits, none if it has no more. -/
theorem doublings_bounds (num : Nat) {den : Nat} (hden : 0 < den) {doublings : Nat}
    (h : doublings = Nat.log2 (num / den) - 52) :
    num < 2 * octave * (den * 2 ^ doublings) ∧ (doublings = 0 ∨ octave * (den * 2 ^ doublings) ≤ num) := by
  have hoctave : 2 ^ 52 = octave := by decide
  have htwo : 2 ^ 53 = 2 * octave := by decide
  constructor
  · have hlt : num / den < 2 ^ (53 + doublings) :=
      Nat.lt_of_lt_of_le Nat.lt_log2_self (Nat.pow_le_pow_right (by decide) (by omega))
    have hnum := (Nat.div_lt_iff_lt_mul hden).1 hlt
    have hassoc : 2 ^ (53 + doublings) * den = 2 * octave * (den * 2 ^ doublings) := by
      rw [Nat.pow_add, Nat.mul_assoc, Nat.mul_comm (2 ^ doublings), htwo]
    rwa [hassoc] at hnum
  · rcases Nat.eq_zero_or_pos doublings with hzero | hpos
    · exact Or.inl hzero
    · have hne : num / den ≠ 0 := by
        intro heq
        rw [heq, Nat.log2_zero] at h
        omega
      have hle : 2 ^ (52 + doublings) ≤ num / den := by
        have hlog := Nat.log2_self_le hne
        rwa [show Nat.log2 (num / den) = 52 + doublings by omega] at hlog
      have hnum := (Nat.le_div_iff_mul_le hden).1 hle
      have hassoc : 2 ^ (52 + doublings) * den = octave * (den * 2 ^ doublings) := by
        rw [Nat.pow_add, Nat.mul_assoc, Nat.mul_comm (2 ^ doublings), hoctave]
      exact Or.inr (by rwa [hassoc] at hnum)

/-- A quotient is rounded to a whole number of steps that, after the doublings, is a rank. -/
theorem steps_bounds (num : Nat) {den : Nat} (hden : 0 < den) {doublings : Nat}
    (h : doublings = Nat.log2 (num / den) - 52) :
    roundHalfEven num (den * 2 ^ doublings) ≤ 2 * octave ∧
      (doublings = 0 ∨ octave ≤ roundHalfEven num (den * 2 ^ doublings)) := by
  obtain ⟨hlt, hnormal⟩ := doublings_bounds num hden h
  have hgrid : 0 < den * 2 ^ doublings := Nat.mul_pos hden (Nat.two_pow_pos _)
  obtain ⟨hlow, hhigh, _⟩ := roundHalfEven_bounds num hgrid
  generalize roundHalfEven num (den * 2 ^ doublings) = steps at *
  generalize den * 2 ^ doublings = grid at *
  refine ⟨?_, hnormal.imp_right fun hnum => ?_⟩
  · have htwice : 2 * (steps * grid) < 2 * ((2 * octave + 1) * grid) := by
      rw [Nat.succ_mul (2 * octave)]
      omega
    exact Nat.le_of_lt_succ (Nat.lt_of_mul_lt_mul_right (Nat.lt_of_mul_lt_mul_left htwice))
  · have htwice : 2 * (octave * grid) < 2 * ((steps + 1) * grid) := by
      rw [Nat.succ_mul steps]
      omega
    exact Nat.le_of_lt_succ (Nat.lt_of_mul_lt_mul_right (Nat.lt_of_mul_lt_mul_left htwice))

/-- **A quotient is in the interval of the rank it is rounded to.** The rank is taken before it is cut off at infinity. -/
theorem roundsTo_steps (num : Nat) {den : Nat} (hden : 0 < den) {doublings : Nat}
    (h : doublings = Nat.log2 (num / den) - 52) :
    RoundsTo num den (doublings * octave + roundHalfEven num (den * 2 ^ doublings)) := by
  have hnormal := (doublings_bounds num hden h).2
  obtain ⟨hle, hge⟩ := steps_bounds num hden h
  have hgrid : 0 < den * 2 ^ doublings := Nat.mul_pos hden (Nat.two_pow_pos _)
  obtain ⟨hlow, hhigh, hodd⟩ := roundHalfEven_bounds num hgrid
  generalize roundHalfEven num (den * 2 ^ doublings) = steps at *
  have hunits : unitsOfRank (doublings * octave + steps) * den = steps * (den * 2 ^ doublings) := by
    rw [unitsOfRank_eq doublings hle hge, Nat.mul_assoc, Nat.mul_comm (2 ^ doublings)]
  have habove : steps * (den * 2 ^ doublings) + den * 2 ^ doublings ≤
      unitsOfRank (doublings * octave + steps + 1) * den := by
    have := Nat.mul_le_mul_right den (le_unitsOfRank_succ doublings hle hge)
    rwa [Nat.mul_assoc, Nat.mul_comm (2 ^ doublings), Nat.succ_mul steps] at this
  have hparity : (doublings * octave + steps) % 2 = steps % 2 := by unfold octave; omega
  -- The magnitude before is one step away, unless an octave begins here and the quotient is not below it.
  have hbelow : unitsOfRank (doublings * octave + steps - 1) * den + den * 2 ^ doublings = steps * (den * 2 ^ doublings) ∨
      steps % 2 = 0 ∧ unitsOfRank (doublings * octave + steps - 1) * den ≤ steps * (den * 2 ^ doublings) ∧
        steps * (den * 2 ^ doublings) ≤ num := by
    by_cases hinner : 0 < steps ∧ (doublings = 0 ∨ octave < steps)
    · left
      rw [unitsOfRank_pred doublings hinner.1 hle hinner.2, Nat.mul_assoc, Nat.mul_comm (2 ^ doublings), ← Nat.succ_mul,
        Nat.succ_eq_add_one, Nat.sub_add_cancel hinner.1]
    · right
      refine ⟨by unfold octave at *; omega, ?_, ?_⟩
      · rw [← hunits]
        exact Nat.mul_le_mul_right den (unitsOfRank_strictMono.monotone (Nat.sub_le _ 1))
      · rcases Nat.eq_zero_or_pos steps with hzero | hpos
        · rw [hzero, Nat.zero_mul]
          exact Nat.zero_le num
        · have hfirst : steps = octave ∧ doublings ≠ 0 := by omega
          rw [hfirst.1]
          exact hnormal.resolve_left hfirst.2
  refine ⟨?_, ?_, fun hrank => ?_⟩
  · rw [Nat.add_mul, hunits]
    omega
  · rw [Nat.add_mul, hunits]
    omega
  · have hstrict := hodd (by omega)
    rw [Nat.add_mul, Nat.add_mul, hunits]
    omega

/-- **The rank of a quotient is the one whose interval the quotient is in.** -/
theorem rankOfQuotient_eq {num den rank : Nat} (hden : 0 < den) (h : RoundsTo num den rank) (hle : rank ≤ infinityRank) :
    rankOfQuotient num den = rank := by
  unfold rankOfQuotient
  dsimp only
  rw [Nat.pow_eq, (roundsTo_steps num hden rfl).unique hden h]
  exact Nat.min_eq_left hle

end SExprLang.Double
