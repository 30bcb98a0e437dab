import Mathlib.Data.List.Forall2
import SExprLang.Proofs.Double.Rounding
import SExprLang.Value

/-!
# Equality of values

Equality of values is symmetric and transitive, and a value equals itself unless it is or contains what is not a number.
`Value.Agrees` says kind by kind when values are equal. Numbers are equal only if they are the same or the two zeros
(`Double.eq_or_oppositeZeros`), so equal values have the same text, the sign of a zero apart (`eqv_laws`).
-/

namespace SExprLang

/-! ## Numbers -/

namespace Double

variable {a b c : Double}

theorem numEq_iff : a.numEq b = true ↔ a.isNaN = false ∧ b.isNaN = false ∧ a.toUnits = b.toUnits := by
  simp only [numEq, Bool.and_eq_true, Bool.not_eq_true', decide_eq_true_eq, and_assoc]

theorem numEq_symm (h : a.numEq b = true) : b.numEq a = true := by
  obtain ⟨ha, hb, hunits⟩ := numEq_iff.1 h
  exact numEq_iff.2 ⟨hb, ha, hunits.symm⟩

theorem numEq_trans (hab : a.numEq b = true) (hbc : b.numEq c = true) : a.numEq c = true := by
  obtain ⟨ha, _, hunits⟩ := numEq_iff.1 hab
  obtain ⟨_, hc, hunits'⟩ := numEq_iff.1 hbc
  exact numEq_iff.2 ⟨ha, hc, hunits.trans hunits'⟩

theorem numEq_self_iff : a.numEq a = true ↔ a.isNaN = false :=
  ⟨fun h => (numEq_iff.1 h).1, fun h => numEq_iff.2 ⟨h, h, rfl⟩⟩

/-- Zeros of different signs. -/
def OppositeZeros (a b : Double) : Prop := a.isZero = true ∧ b.isZero = true ∧ a.negative ≠ b.negative

theorem rank_eq_zero_of_units (h : unitsOfRank a.rank = 0) : a.rank = 0 :=
  unitsOfRank_strictMono.injective (h.trans unitsOfRank_zero.symm)

/-- Equal numbers are the same, or the two zeros. -/
theorem eq_or_oppositeZeros (h : a.numEq b = true) : a = b ∨ a.OppositeZeros b := by
  have hunits := (numEq_iff.1 h).2.2
  by_cases hsign : a.negative = b.negative
  · left
    have hrank : unitsOfRank a.rank = unitsOfRank b.rank := by
      unfold toUnits at hunits
      rw [hsign] at hunits
      split at hunits <;> omega
    obtain ⟨_, _, _⟩ := a
    obtain ⟨_, _, _⟩ := b
    obtain rfl := unitsOfRank_strictMono.injective hrank
    obtain rfl := hsign
    rfl
  · right
    have hzeros : unitsOfRank a.rank = 0 ∧ unitsOfRank b.rank = 0 := by
      unfold toUnits at hunits
      -- The signs are different, so one side is not positive and the other one not negative.
      have hopposite : a.negative = !b.negative := Bool.eq_not_of_ne hsign
      rw [hopposite] at hunits
      cases hb : b.negative with
      | false =>
        simp only [hb, Bool.not_false, if_true, Bool.false_eq_true, if_false] at hunits
        omega
      | true =>
        simp only [hb, Bool.not_true, if_true, Bool.false_eq_true, if_false] at hunits
        omega
    exact ⟨decide_eq_true (rank_eq_zero_of_units hzeros.1), decide_eq_true (rank_eq_zero_of_units hzeros.2), hsign⟩

end Double

namespace Value

/-! ## Equality kind by kind -/

theorem numbersEqv_iff (as bs : List Double) :
    numbersEqv as bs = true ↔ List.Forall₂ (fun a b => a.numEq b = true) as bs := by
  induction as generalizing bs with
  | nil => cases bs <;> simp [numbersEqv]
  | cons a as ih => cases bs <;> simp [numbersEqv, ih]

/-- Values that are equal: of one kind, and alike as that kind demands. -/
inductive Agrees : Value → Value → Prop
  | nil : Agrees nil nil
  | bool (b : Bool) : Agrees (bool b) (bool b)
  | number {a b : Double} : a.numEq b = true → Agrees (number a) (number b)
  | string (s : String) : Agrees (string s) (string s)
  | numbers {as bs : List Double} : List.Forall₂ (fun a b => a.numEq b = true) as bs → Agrees (numbers as) (numbers bs)
  | strings (ss : List String) : Agrees (strings ss) (strings ss)
  | operation {a b : Operation} : a.identity = b.identity → Agrees (operation a) (operation b)
  | host {a b : HostObject} : a.identity = b.identity → Agrees (host a) (host b)

variable {u v w : Value}

theorem kind_eq_of_eqv (h : u.eqv v = true) : u.kind = v.kind := by
  cases u <;> cases v <;> first | rfl | exact absurd h Bool.false_ne_true

theorem eqv_iff_agrees : u.eqv v = true ↔ Agrees u v := by
  constructor
  · intro h
    have hkind := kind_eq_of_eqv h
    cases u <;> cases v <;> cases hkind
    · exact .nil
    · exact eq_of_beq h ▸ .bool _
    · exact .number h
    · exact eq_of_beq h ▸ .string _
    · exact .numbers ((numbersEqv_iff _ _).1 h)
    · exact eq_of_beq h ▸ .strings _
    · exact .operation (eq_of_beq h)
    · exact .host (eq_of_beq h)
  · intro h
    cases h with
    | nil => rfl
    | bool b => exact beq_self_eq_true b
    | number h => exact h
    | string s => exact beq_self_eq_true s
    | numbers h => exact (numbersEqv_iff _ _).2 h
    | strings ss => exact beq_self_eq_true ss
    | operation h => exact beq_iff_eq.2 h
    | host h => exact beq_iff_eq.2 h

/-! ## The laws -/

theorem Agrees.symm (h : Agrees u v) : Agrees v u := by
  cases h with
  | nil => exact .nil
  | bool b => exact .bool b
  | number h => exact .number (Double.numEq_symm h)
  | string s => exact .string s
  | numbers h => exact .numbers (h.flip.imp fun _ _ => Double.numEq_symm)
  | strings ss => exact .strings ss
  | operation h => exact .operation h.symm
  | host h => exact .host h.symm

theorem forall₂_numEq_trans {as bs cs : List Double} (h : List.Forall₂ (fun a b => a.numEq b = true) as bs)
    (h' : List.Forall₂ (fun a b => a.numEq b = true) bs cs) : List.Forall₂ (fun a b => a.numEq b = true) as cs := by
  induction h generalizing cs with
  | nil => exact h'
  | cons hfirst _ ih => cases h' with | cons hfirst' hrest => exact .cons (Double.numEq_trans hfirst hfirst') (ih hrest)

theorem Agrees.trans (huv : Agrees u v) (hvw : Agrees v w) : Agrees u w := by
  cases huv with
  | nil => exact hvw
  | bool b => exact hvw
  | number h => cases hvw with | number h' => exact .number (Double.numEq_trans h h')
  | string s => exact hvw
  | numbers h => cases hvw with | numbers h' => exact .numbers (forall₂_numEq_trans h h')
  | strings ss => exact hvw
  | operation h => cases hvw with | operation h' => exact .operation (h.trans h')
  | host h => cases hvw with | host h' => exact .host (h.trans h')

/-- A value equals itself unless it is or contains what is not a number. -/
theorem agrees_self_iff : Agrees v v ↔ (∀ d, v = .number d → d.isNaN = false) ∧
    ∀ ds, v = .numbers ds → ∀ d ∈ ds, d.isNaN = false := by
  constructor
  · rintro h
    refine ⟨?_, ?_⟩
    · rintro d rfl
      cases h with | number h => exact Double.numEq_self_iff.1 h
    · rintro ds rfl d hd
      cases h with | numbers h => exact Double.numEq_self_iff.1 (List.forall₂_same.1 h d hd)
  · rintro ⟨hnumber, hnumbers⟩
    cases v with
    | nil => exact .nil
    | bool b => exact .bool b
    | number d => exact .number (Double.numEq_self_iff.2 (hnumber d rfl))
    | string s => exact .string s
    | numbers ds =>
      exact .numbers (List.forall₂_same.2 fun d hd => Double.numEq_self_iff.2 (hnumbers ds rfl d hd))
    | strings ss => exact .strings ss
    | operation o => exact .operation rfl
    | host o => exact .host rfl

/-! ## Texts -/

/-- Two numbers are opposite zeros, or the numbers at one place of two sequences are. -/
inductive DifferInZeroSign : Value → Value → Prop
  | number {a b : Double} : a.OppositeZeros b → DifferInZeroSign (number a) (number b)
  | numbers {as bs : List Double} {i : Nat} {a b : Double} : as[i]? = some a → bs[i]? = some b → a.OppositeZeros b →
      DifferInZeroSign (numbers as) (numbers bs)

/-- Sequences of equal numbers are the same, or have opposite zeros somewhere. -/
theorem eq_or_exists_oppositeZeros {as bs : List Double} (h : List.Forall₂ (fun a b => a.numEq b = true) as bs) :
    as = bs ∨ ∃ i : Nat, ∃ a b : Double, as[i]? = some a ∧ bs[i]? = some b ∧ a.OppositeZeros b := by
  induction h with
  | nil => exact Or.inl rfl
  | @cons a b as bs hfirst _ ih =>
    rcases Double.eq_or_oppositeZeros hfirst with rfl | hzeros
    · rcases ih with rfl | ⟨i, c, d, hc, hd, hzeros⟩
      · exact Or.inl rfl
      · exact Or.inr ⟨i + 1, c, d, hc, hd, hzeros⟩
    · exact Or.inr ⟨0, a, b, rfl, rfl, hzeros⟩

theorem Agrees.display_eq (h : Agrees u v) : u.display = v.display ∨ DifferInZeroSign u v := by
  cases h with
  | number h =>
    rcases Double.eq_or_oppositeZeros h with rfl | hzeros
    · exact Or.inl rfl
    · exact Or.inr (.number hzeros)
  | numbers h =>
    rcases eq_or_exists_oppositeZeros h with rfl | ⟨_, _, _, ha, hb, hzeros⟩
    · exact Or.inl rfl
    · exact Or.inr (.numbers ha hb hzeros)
  | _ => exact Or.inl rfl

/-- **Equality of values is a partial equivalence.** It is symmetric and transitive. A value equals its copy exactly if it
is neither what is not a number nor a sequence with such a number in it, so operations and host objects always do. Values
of different kinds are not equal. Equal values have the same text, unless they differ in the sign of a zero. -/
theorem eqv_laws (u v w : Value) :
    (u.eqv v = true → v.eqv u = true) ∧
    (u.eqv v = true → v.eqv w = true → u.eqv w = true) ∧
    (v.eqv v = true ↔ (∀ d, v = .number d → d.isNaN = false) ∧ ∀ ds, v = .numbers ds → ∀ d ∈ ds, d.isNaN = false) ∧
    (v.kind = .operation ∨ v.kind = .host → v.eqv v = true) ∧
    (u.kind ≠ v.kind → u.eqv v = false) ∧
    (u.eqv v = true → u.display = v.display ∨ DifferInZeroSign u v) := by
  simp only [eqv_iff_agrees]
  refine ⟨Agrees.symm, Agrees.trans, agrees_self_iff, ?_, ?_, Agrees.display_eq⟩
  · intro hkind
    refine agrees_self_iff.2 ⟨?_, ?_⟩
    · rintro d rfl
      simp [kind] at hkind
    · rintro ds rfl
      simp [kind] at hkind
  · intro hkind
    exact Bool.eq_false_iff.2 fun h => hkind (kind_eq_of_eqv h)

end Value

end SExprLang
