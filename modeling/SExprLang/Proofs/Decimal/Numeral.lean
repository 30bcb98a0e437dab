import Mathlib.Data.List.TakeDrop
import SExprLang.Decimal.Layout
import SExprLang.Decimal.Numeral
import SExprLang.Proofs.Decimal.Shortest

/-!
# Reading digits

A decimal without an exponent part is written as digits, with a point among them or not (`Written`), and such a text is
read as the double nearest to its digits (`Written.read?_eq`). No finite magnitude has so many places that it would be
read as infinite or as zero without regard to its digits (`nearest_eq`). So every finite magnitude other than zero is read
from its plain notation (`read?_layout`).
-/

namespace SExprLang

namespace Decimal

/-! ## Digits -/

/-- All characters are decimal digits. -/
def AreDigits (text : List Char) : Prop := ∀ c ∈ text, c.isDigit = true

theorem exists_digitChar_of_isDigit {c : Char} (h : c.isDigit = true) : ∃ i < 10, c = Nat.digitChar i := by
  obtain ⟨hlow, hhigh⟩ := Char.isDigit_iff_toNat.1 h
  have hzero : '0'.toNat = 48 := rfl
  have hnine : '9'.toNat = 57 := rfl
  have hlt : c.toNat - 48 < 10 := by omega
  refine ⟨c.toNat - 48, hlt, Char.toNat_inj.1 ?_⟩
  rw [Nat.toNat_digitChar_of_lt_ten hlt]
  omega

theorem areDigits_digitChars (d : Decimal) : AreDigits d.digitChars :=
  fun _ h => Nat.isDigit_of_mem_toDigits (by decide) (by decide) h

theorem areDigits_replicate (count : Nat) : AreDigits (List.replicate count '0') :=
  fun _ h => List.eq_of_mem_replicate h ▸ rfl

theorem AreDigits.append {a b : List Char} (ha : AreDigits a) (hb : AreDigits b) : AreDigits (a ++ b) :=
  List.forall_mem_append.2 ⟨ha, hb⟩

theorem ofDigitChars_eq (digits : List Char) : ofDigitChars digits = Nat.ofDigitChars 10 digits 0 :=
  Nat.ofDigitChars_eq_foldl.symm

theorem ofDigitChars_digitChars (d : Decimal) : ofDigitChars d.digitChars = d.digits := by
  rw [ofDigitChars_eq]
  exact Nat.ofDigitChars_ten_toDigits

theorem ofDigitChars_append (a b : List Char) : ofDigitChars (a ++ b) = ofDigitChars a * 10 ^ b.length + ofDigitChars b := by
  simp only [ofDigitChars_eq]
  rw [Nat.ofDigitChars_append, Nat.ofDigitChars_eq_ofDigitChars_zero, Nat.mul_comm]

theorem ofDigitChars_replicate (count : Nat) : ofDigitChars (List.replicate count '0') = 0 := by
  rw [ofDigitChars_eq, Nat.ofDigitChars_replicate_zero, Nat.mul_zero]

theorem ofDigitChars_cons (c : Char) (digits : List Char) :
    ofDigitChars (c :: digits) = (c.toNat - '0'.toNat) * 10 ^ digits.length + ofDigitChars digits := by
  have hfirst : ofDigitChars [c] = c.toNat - '0'.toNat := by
    rw [ofDigitChars_eq, Nat.ofDigitChars_cons, Nat.ofDigitChars_nil, Nat.mul_zero, Nat.zero_add]
  rw [← hfirst]
  exact ofDigitChars_append [c] digits

/-- Zeros in front of the digits do not count. -/
theorem ofDigitChars_dropWhile (digits : List Char) : ofDigitChars (digits.dropWhile (· == '0')) = ofDigitChars digits := by
  induction digits with
  | nil => rfl
  | cons c digits ih =>
    rw [List.dropWhile_cons]
    split
    · rename_i hzero
      rw [ih, ofDigitChars_cons, eq_of_beq hzero, Nat.sub_self, Nat.zero_mul, Nat.zero_add]
    · rfl

theorem ofDigitChars_lt {digits : List Char} (h : AreDigits digits) : ofDigitChars digits < 10 ^ digits.length := by
  induction digits with
  | nil => decide
  | cons c digits ih =>
    obtain ⟨hc, hrest⟩ := List.forall_mem_cons.1 h
    have hnine : c.toNat - '0'.toNat ≤ 9 := by
      have := (Char.isDigit_iff_toNat.1 hc).2
      have : '9'.toNat = '0'.toNat + 9 := rfl
      omega
    have hfirst := Nat.mul_le_mul_right (10 ^ digits.length) hnine
    have := ih hrest
    rw [ofDigitChars_cons, List.length_cons, Nat.pow_succ]
    omega

/-- Digits that do not begin with a zero. -/
theorem le_ofDigitChars {c : Char} (hc : c.isDigit = true) (hne : c ≠ '0') (digits : List Char) :
    10 ^ digits.length ≤ ofDigitChars (c :: digits) := by
  have hlow := (Char.isDigit_iff_toNat.1 hc).1
  have hzero : c.toNat ≠ '0'.toNat := fun heq => hne (Char.toNat_inj.1 heq)
  have hpos : 0 < c.toNat - '0'.toNat := by omega
  rw [ofDigitChars_cons]
  exact Nat.le_trans (Nat.le_mul_of_pos_left _ hpos) (Nat.le_add_right _ _)

/-! ## The places of a finite magnitude -/

theorem infinity_lt {places : Nat} (h : places = 310) :
    Double.unitsOfRank Double.infinityRank < 10 ^ places * Double.unitsOfOne := by
  rw [h]
  decide +kernel

theorem twice_unitsOfOne_lt {places : Nat} (h : places = 330) : 2 * Double.unitsOfOne < 10 ^ places := by
  rw [h]
  decide +kernel

variable {d : Decimal} {rank places : Nat}

/-- A decimal that rounds to a finite magnitude has no more than 310 places. -/
theorem RoundsTo.scale_le (h : d.RoundsTo rank) (hlt : rank < Double.infinityRank) (hplaces : 10 ^ places ≤ d.digits) :
    places + d.exponent < 310 := by
  obtain ⟨bound, hbound⟩ : ∃ bound, bound = 310 := ⟨_, rfl⟩
  have hpow : 10 ^ (places + d.exponent.toNat) < 10 ^ (bound + (-d.exponent).toNat) := by
    rw [Nat.pow_add, Nat.pow_add, ← tenNum_eq d.exponent, ← tenDen_eq d.exponent]
    have hnum := Nat.mul_le_mul_right Double.unitsOfOne (Nat.mul_le_mul_right (tenNum d.exponent) hplaces)
    have hinfinity := Nat.mul_lt_mul_of_pos_right (infinity_lt hbound) (tenDen_pos d.exponent)
    rw [Nat.mul_right_comm] at hinfinity
    exact Nat.lt_of_mul_lt_mul_right (Nat.lt_of_le_of_lt (Nat.le_trans hnum (h.num_le hlt)) hinfinity)
  have := (Nat.pow_lt_pow_iff_right (by decide)).1 hpow
  omega

/-- A decimal that rounds to a magnitude other than zero starts no more than 330 places after the point. -/
theorem RoundsTo.le_scale (h : d.RoundsTo rank) (hpos : 0 < rank) (hplaces : d.digits < 10 ^ places) :
    -330 < places + d.exponent := by
  obtain ⟨bound, hbound⟩ : ∃ bound, bound = 330 := ⟨_, rfl⟩
  have hpow : 10 ^ (-d.exponent).toNat < 10 ^ (places + d.exponent.toNat + bound) := by
    rw [Nat.pow_add, Nat.pow_add, ← tenNum_eq d.exponent, ← tenDen_eq d.exponent]
    have hten := tenNum_pos d.exponent
    calc tenDen d.exponent ≤ 2 * (d.digits * tenNum d.exponent * Double.unitsOfOne) := h.den_le hpos
      _ = d.digits * tenNum d.exponent * (2 * Double.unitsOfOne) := Nat.mul_left_comm _ _ _
      _ ≤ 10 ^ places * tenNum d.exponent * (2 * Double.unitsOfOne) :=
        Nat.mul_le_mul_right _ (Nat.mul_le_mul_right _ hplaces.le)
      _ < 10 ^ places * tenNum d.exponent * 10 ^ bound :=
        Nat.mul_lt_mul_of_pos_left (twice_unitsOfOne_lt hbound) (Nat.mul_pos (Nat.pow_pos (by decide)) hten)
  have := (Nat.pow_lt_pow_iff_right (by decide)).1 hpow
  omega

/-! ## Reading digits -/

/-- **Digits are read as the double they round to.** -/
theorem nearest_eq {digits : List Char} {exponent : Int} (hdigits : AreDigits digits)
    (h : RoundsTo ⟨ofDigitChars digits, exponent⟩ rank) (hpos : 0 < rank) (hlt : rank < Double.infinityRank) :
    nearest digits exponent = ⟨false, rank, Nat.lt_trans hlt Double.infinityRank_lt⟩ := by
  rw [← ofDigitChars_dropWhile] at h
  unfold nearest
  dsimp only
  cases hsignificant : digits.dropWhile (· == '0') with
  | nil =>
    -- Digits that are all zeros do not round to a magnitude other than zero.
    rw [hsignificant] at h
    have hzero := h.den_le hpos
    have := tenDen_pos exponent
    simp only [ofDigitChars, List.foldl_nil, Nat.zero_mul, Nat.mul_zero] at hzero
    omega
  | cons c rest =>
    have hall : AreDigits (c :: rest) := fun x hx => hdigits x ((List.dropWhile_suffix _).mem (hsignificant ▸ hx))
    have hfirst : c ≠ '0' := by
      have hhead := List.head_dropWhile_not (· == '0') (l := digits) (by rw [hsignificant]; exact List.cons_ne_nil c rest)
      simp only [hsignificant, List.head_cons, beq_eq_false_iff_ne] at hhead
      exact hhead
    rw [hsignificant] at h
    have hle := h.scale_le hlt (le_ofDigitChars (hall c List.mem_cons_self) hfirst rest)
    have hge := h.le_scale hpos (ofDigitChars_lt hall)
    simp only [List.length_cons] at hle hge ⊢
    rw [if_neg (by simp), if_neg (by omega), if_neg (by omega)]
    exact h.toDouble_eq hlt.le false

/-- The text writes the digits, of which the last counts `10 ^ exponent`, and has no exponent part. -/
inductive Written : (text digits : List Char) → (exponent : Int) → Prop
  | whole {digits : List Char} : digits ≠ [] → AreDigits digits → Written digits digits 0
  | point {whole fraction : List Char} : whole ≠ [] → AreDigits whole → AreDigits fraction →
      Written (whole ++ '.' :: fraction) (whole ++ fraction) (-fraction.length)

namespace Written

variable {text digits : List Char} {exponent : Int}

theorem span_areDigits (h : AreDigits digits) (rest : List Char) (hrest : ∀ c ∈ rest.head?, c.isDigit = false) :
    (digits ++ rest).span Char.isDigit = (digits, rest) := by
  have hstop : rest.takeWhile Char.isDigit = [] ∧ rest.dropWhile Char.isDigit = rest := by
    cases rest with
    | nil => exact ⟨rfl, rfl⟩
    | cons c rest => simp [hrest c rfl]
  rw [List.span_eq_takeWhile_dropWhile, List.takeWhile_append_of_pos h, List.dropWhile_append_of_pos h, hstop.1, hstop.2,
    List.append_nil]

theorem areDigits (h : Written text digits exponent) : AreDigits digits := by
  cases h with
  | whole _ hdigits => exact hdigits
  | point _ hwhole hfraction => exact hwhole.append hfraction

/-- What is written is read as the double nearest to it. -/
theorem read?_eq (h : Written text digits exponent) : read? text = some (nearest digits exponent) := by
  unfold read?
  cases h with
  | whole hne hdigits =>
    have hspan := span_areDigits hdigits [] nofun
    rw [List.append_nil] at hspan
    simp only [hspan, splitFraction, exponent?]
    rw [if_neg (by simp [hne])]
    simp
  | @point whole fraction hne hwhole hfraction =>
    have hspan := span_areDigits hwhole ('.' :: fraction) (by rintro c ⟨⟩; rfl)
    have hspan' := span_areDigits hfraction [] nofun
    rw [List.append_nil] at hspan'
    simp only [hspan, hspan', splitFraction, exponent?]
    rw [if_neg (by simp [hne])]
    simp

theorem exists_head (h : Written text digits exponent) : ∃ c rest, text = c :: rest ∧ c.isDigit = true := by
  cases h with
  | whole hne hdigits =>
    obtain ⟨c, rest, rfl⟩ := List.exists_cons_of_ne_nil hne
    exact ⟨c, rest, rfl, hdigits c List.mem_cons_self⟩
  | point hne hwhole _ =>
    obtain ⟨c, rest, rfl⟩ := List.exists_cons_of_ne_nil hne
    exact ⟨c, _, rfl, hwhole c List.mem_cons_self⟩

theorem mem (h : Written text digits exponent) {c : Char} (hc : c ∈ text) : c.isDigit = true ∨ c = '.' := by
  cases h with
  | whole _ hdigits => exact Or.inl (hdigits c hc)
  | point _ hwhole hfraction =>
    rcases List.mem_append.1 hc with hc | hc
    · exact Or.inl (hwhole c hc)
    · rcases List.mem_cons.1 hc with rfl | hc
      · exact Or.inr rfl
      · exact Or.inl (hfraction c hc)

end Written

/-- A decimal in positional notation is written with digits of its value. -/
theorem exists_written_positional (d : Decimal) : ∃ digits exponent, Written (d.positional false) digits exponent ∧
    ∀ rank, d.RoundsTo rank → RoundsTo ⟨ofDigitChars digits, exponent⟩ rank := by
  have hne : d.digitChars ≠ [] := Nat.toDigits_ne_nil
  unfold positional
  split
  · rename_i hexponent
    refine ⟨_, _, .whole ?_ ?_, ?_⟩
    · simp [hne]
    · simpa using d.areDigits_digitChars.append (areDigits_replicate _)
    · intro rank h
      have hshift : d.exponent = 0 + (d.exponent.toNat : Int) := by omega
      simp only [Bool.false_eq_true, if_false, List.append_nil]
      rw [ofDigitChars_append, List.length_replicate, ofDigitChars_replicate, Nat.add_zero, ofDigitChars_digitChars,
        RoundsTo.shift, ← hshift]
      exact h
  · rename_i hexponent
    dsimp only
    generalize hpadding : List.replicate ((-d.exponent).toNat + 1 - d.digitChars.length) '0' = padding
    have hzeros : AreDigits padding ∧ ofDigitChars padding = 0 ∧
        (-d.exponent).toNat + 1 ≤ (padding ++ d.digitChars).length := by
      subst hpadding
      refine ⟨areDigits_replicate _, ofDigitChars_replicate _, ?_⟩
      rw [List.length_append, List.length_replicate]
      omega
    obtain ⟨hpadding, hvalue, hlength⟩ := hzeros
    have hall := hpadding.append d.areDigits_digitChars
    refine ⟨_, _, .point ?_ ?_ ?_, ?_⟩
    · rw [← List.length_pos_iff, List.length_take]
      omega
    · exact fun c hc => hall c (List.mem_of_mem_take hc)
    · exact fun c hc => hall c (List.mem_of_mem_drop hc)
    · intro rank h
      rw [List.take_append_drop, List.length_drop, ofDigitChars_append, hvalue, Nat.zero_mul, Nat.zero_add,
        ofDigitChars_digitChars]
      have hplaces : -(((padding ++ d.digitChars).length - ((padding ++ d.digitChars).length - (-d.exponent).toNat) : Nat) :
          Int) = d.exponent := by omega
      rw [hplaces]
      exact h

/-- **A finite magnitude other than zero is read from its plain notation.** -/
theorem read?_layout (hpos : 0 < rank) (hlt : rank < Double.infinityRank) :
    read? ((shortest rank).layout .plain) = some ⟨false, rank, Nat.lt_trans hlt Double.infinityRank_lt⟩ := by
  obtain ⟨digits, exponent, hwritten, hvalue⟩ := exists_written_positional (shortest rank)
  rw [show (shortest rank).layout .plain = (shortest rank).positional false from rfl, hwritten.read?_eq,
    nearest_eq hwritten.areDigits (hvalue rank (shortest_roundsTo rank)) hpos hlt]

end Decimal

end SExprLang
