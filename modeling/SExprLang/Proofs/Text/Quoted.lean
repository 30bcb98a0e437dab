import SExprLang.Value

/-!
# Quoted texts can be told apart

A character between quotes is written as itself, by a mark of its own after a backslash, or by its code point
(`Escape`). Whatever follows, the way it is written tells which character it is and where the next one begins
(`Escape.unambiguous`), and none begins like the closing quote. So a quoted text tells the text and where it ends
(`quoteChars_unambiguous`), and the text of a list of strings tells the list (`display_strings_eq_iff`).
-/

namespace SExprLang

namespace Text

/-! ## Numerals -/

theorem eq_of_digitChar_eq : ∀ i < 16, ∀ j < 16, Nat.digitChar i = Nat.digitChar j → i = j := by decide

/-- Numbers with the same digits are equal. -/
theorem eq_of_toDigits_eq {base m n : Nat} (hlow : 1 < base) (hhigh : base ≤ 16)
    (h : Nat.toDigits base m = Nat.toDigits base n) : m = n := by
  have hdigit : ∀ i < base, ∀ j < base, Nat.digitChar i = Nat.digitChar j → i = j :=
    fun i hi j hj => eq_of_digitChar_eq i (by omega) j (by omega)
  induction m using Nat.strongRecOn generalizing n with
  | _ m ih =>
    have hshort : n < base ↔ m < base := by
      have hm := @Nat.length_toDigits_le_iff base m 1 hlow Nat.one_pos
      rwa [h, Nat.length_toDigits_le_iff hlow Nat.one_pos, Nat.pow_one] at hm
    by_cases hm : m < base
    · have hn := hshort.2 hm
      rw [Nat.toDigits_of_lt_base hm, Nat.toDigits_of_lt_base hn] at h
      exact hdigit m hm n hn (List.cons.inj h).1
    · have hn : ¬ n < base := fun hn => hm (hshort.1 hn)
      rw [Nat.toDigits_of_base_le hlow (Nat.le_of_not_lt hm), Nat.toDigits_of_base_le hlow (Nat.le_of_not_lt hn)] at h
      obtain ⟨hrest, hlast⟩ := List.append_inj' h rfl
      have hmod := hdigit _ (Nat.mod_lt m (by omega)) _ (Nat.mod_lt n (by omega)) (List.cons.inj hlast).1
      have hdiv := ih (m / base) (Nat.div_lt_self (by omega) hlow) hrest
      rw [← Nat.div_add_mod m base, ← Nat.div_add_mod n base, hdiv, hmod]

theorem exists_digitChar_of_mem_toDigits {base n : Nat} {c : Char} (hlow : 1 < base) (h : c ∈ Nat.toDigits base n) :
    ∃ i, c = Nat.digitChar i := by
  induction n using Nat.strongRecOn with
  | _ n ih =>
    rw [Nat.toDigits_eq_if hlow] at h
    split at h
    · exact ⟨n, List.mem_singleton.1 h⟩
    · rename_i hn
      rcases List.mem_append.1 h with hrest | hlast
      · exact ih (n / base) (Nat.div_lt_self (by omega) hlow) hrest
      · exact ⟨n % base, List.mem_singleton.1 hlast⟩

/-- A text splits in one way where a character stands for the first time. -/
theorem split_unique {b : Char} {r s : List Char} : ∀ {u v : List Char}, b ∉ u → b ∉ v →
    u ++ b :: r = v ++ b :: s → u = v ∧ r = s
  | [], [], _, _, h => ⟨rfl, (List.cons.inj h).2⟩
  | [], c :: v, _, hv, h => absurd ((List.cons.inj h).1 ▸ List.mem_cons_self) hv
  | c :: u, [], hu, _, h => absurd ((List.cons.inj h).1 ▸ List.mem_cons_self) hu
  | c :: u, d :: v, hu, hv, h => by
    obtain ⟨rfl, htail⟩ := List.cons.inj h
    obtain ⟨rfl, hrest⟩ := split_unique (fun hb => hu (List.mem_cons_of_mem _ hb))
      (fun hb => hv (List.mem_cons_of_mem _ hb)) htail
    exact ⟨rfl, hrest⟩

/-- The code points of characters, each with its closing brace, can be told apart. -/
theorem codePointEscape_unambiguous {c d : Char} {r s : List Char} (h : codePointEscape c ++ r = codePointEscape d ++ s) :
    c = d ∧ r = s := by
  have hbrace : ∀ n, '\x7d' ∉ Nat.toDigits 16 n := by
    intro n hmem
    obtain ⟨i, hi⟩ := exists_digitChar_of_mem_toDigits (by decide) hmem
    exact Nat.digitChar_ne '\x7d' (by decide) hi.symm
  simp only [codePointEscape, List.append_assoc, List.cons_append, List.nil_append, List.cons.injEq, true_and] at h
  obtain ⟨hdigits, hrest⟩ := split_unique (hbrace _) (hbrace _) h
  exact ⟨Char.toNat_inj.1 (eq_of_toDigits_eq (by decide) (by decide) hdigits), hrest⟩

/-! ## Characters between quotes -/

/-- The characters that have a mark of their own. -/
def marks : List (Char × Char) := [('\x00', '0'), ('\t', 't'), ('\r', 'r'), ('\n', 'n'), ('"', '"'), ('\\', '\\')]

theorem eq_of_mark_eq : ∀ a ∈ marks, ∀ b ∈ marks, a.2 = b.2 → a.1 = b.1 := by decide

theorem mark_ne : ∀ a ∈ marks, a.2 ≠ 'u' := by decide

/-- The ways to write a character between quotes. -/
inductive Escape : Char → List Char → Prop
  | plain {c : Char} : c ≠ '"' → c ≠ '\\' → Escape c [c]
  | marked {c mark : Char} : (c, mark) ∈ marks → Escape c ['\\', mark]
  | codePoint (c : Char) : Escape c (codePointEscape c)

theorem escape_escapeChar (c : Char) : Escape c (escapeChar c) := by
  unfold escapeChar
  split
  · exact .marked (by decide)
  · exact .marked (by decide)
  · exact .marked (by decide)
  · exact .marked (by decide)
  · exact .marked (by decide)
  · exact .marked (by decide)
  · rename_i hquote hbackslash
    split
    · exact .codePoint c
    · exact .plain hquote hbackslash

namespace Escape

variable {c d : Char} {u v r s : List Char}

/-- **What is written tells the character and where the next one begins.** -/
theorem unambiguous (hc : Escape c u) (hd : Escape d v) (h : u ++ r = v ++ s) : c = d ∧ r = s := by
  cases hc with
  | plain _ hbackslash =>
    cases hd with
    | plain _ _ => exact List.cons.inj h
    | marked _ => exact absurd (List.cons.inj h).1 hbackslash
    | codePoint => exact absurd (List.cons.inj h).1 hbackslash
  | marked hmark =>
    cases hd with
    | plain _ hbackslash => exact absurd (List.cons.inj h).1.symm hbackslash
    | marked hmark' =>
      obtain ⟨hsame, hrest⟩ := List.cons.inj (List.cons.inj h).2
      exact ⟨eq_of_mark_eq _ hmark _ hmark' hsame, hrest⟩
    | codePoint => exact absurd (List.cons.inj (List.cons.inj h).2).1 (mark_ne _ hmark)
  | codePoint =>
    cases hd with
    | plain _ hbackslash => exact absurd (List.cons.inj h).1.symm hbackslash
    | marked hmark => exact absurd (List.cons.inj (List.cons.inj h).2).1.symm (mark_ne _ hmark)
    | codePoint => exact codePointEscape_unambiguous h

/-- No character is written so that it begins like the closing quote. -/
theorem ne_quote (hc : Escape c u) : u ++ r ≠ '"' :: s := by
  intro h
  cases hc with
  | plain hquote _ => exact hquote (List.cons.inj h).1
  | marked _ => exact absurd (List.cons.inj h).1 (by decide)
  | codePoint => exact absurd (List.cons.inj h).1 (by decide)

end Escape

/-! ## Quoted texts -/

theorem escaped_unambiguous {xs ys r s : List Char}
    (h : xs.flatMap escapeChar ++ '"' :: r = ys.flatMap escapeChar ++ '"' :: s) : xs = ys ∧ r = s := by
  induction xs generalizing ys with
  | nil =>
    cases ys with
    | nil => exact ⟨rfl, (List.cons.inj h).2⟩
    | cons d ys =>
      rw [List.flatMap_cons, List.append_assoc] at h
      exact absurd h.symm (escape_escapeChar d).ne_quote
  | cons c xs ih =>
    rw [List.flatMap_cons, List.append_assoc] at h
    cases ys with
    | nil => exact absurd h (escape_escapeChar c).ne_quote
    | cons d ys =>
      rw [List.flatMap_cons, List.append_assoc] at h
      obtain ⟨rfl, htail⟩ := (escape_escapeChar c).unambiguous (escape_escapeChar d) h
      obtain ⟨rfl, hrest⟩ := ih htail
      exact ⟨rfl, hrest⟩

/-- **A quoted text tells the text and where it ends.** -/
theorem quoteChars_unambiguous {xs ys r s : List Char} (h : quoteChars xs ++ r = quoteChars ys ++ s) :
    xs = ys ∧ r = s := by
  simp only [quoteChars, List.cons_append, List.append_assoc, List.nil_append, List.cons.injEq, true_and] at h
  exact escaped_unambiguous h

/-! ## Lists of quoted texts -/

/-- What follows the first of some quoted texts in their list. -/
def afterQuoted : List String → List Char
  | [] => [']']
  | x :: rest => ' ' :: quoteChars x.toList ++ afterQuoted rest

theorem afterQuoted_unambiguous : ∀ {xs ys : List String}, afterQuoted xs = afterQuoted ys → xs = ys
  | [], [], _ => rfl
  | [], y :: ys, h => absurd (List.cons.inj h).1 (by decide)
  | x :: xs, [], h => absurd (List.cons.inj h).1 (by decide)
  | x :: xs, y :: ys, h => by
    obtain ⟨hfirst, hrest⟩ := quoteChars_unambiguous (List.cons.inj h).2
    rw [String.toList_inj.1 hfirst, afterQuoted_unambiguous hrest]

/-- The text of a list of strings, from its first quote on. -/
theorem intercalate_quote (x : String) (xs : List String) :
    (" ".intercalate ((x :: xs).map quote)).toList ++ [']'] = quoteChars x.toList ++ afterQuoted xs := by
  induction xs generalizing x with
  | nil => simp [quote, afterQuoted]
  | cons y xs ih =>
    rw [List.map_cons, List.map_cons, String.intercalate_cons_cons, ← List.map_cons, String.toList_append,
      String.toList_append, List.append_assoc, ih y]
    simp [quote, afterQuoted]

end Text

open Text

/-- **The text of a list of strings tells the list.** -/
theorem display_strings_eq_iff (xs ys : List String) :
    (Value.strings xs).display = (Value.strings ys).display ↔ xs = ys := by
  refine ⟨fun h => ?_, fun h => congrArg _ (congrArg _ h)⟩
  have hchars : (" ".intercalate (xs.map quote)).toList ++ [']'] = (" ".intercalate (ys.map quote)).toList ++ [']'] := by
    have := congrArg String.toList h
    simp only [Value.display, String.toList_append] at this
    exact (List.cons.inj this).2
  -- A list that is not empty begins with a quote, and the empty one with the closing bracket.
  cases xs with
  | nil =>
    cases ys with
    | nil => rfl
    | cons y ys =>
      rw [intercalate_quote] at hchars
      exact absurd (List.cons.inj hchars).1 (by decide)
  | cons x xs =>
    rw [intercalate_quote] at hchars
    cases ys with
    | nil => exact absurd (List.cons.inj hchars).1 (by decide)
    | cons y ys =>
      rw [intercalate_quote] at hchars
      obtain ⟨hfirst, hrest⟩ := quoteChars_unambiguous hchars
      rw [String.toList_inj.1 hfirst, afterQuoted_unambiguous hrest]

end SExprLang
