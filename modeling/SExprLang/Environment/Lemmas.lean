import SExprLang.Environment

/-!
# What environments bind

An environment is determined by what it binds each name to (`Environment.ext_get?`), and a change is felt at its own name
alone (`Environment.get?_define`, `Environment.get?_remove`).
-/

namespace SExprLang.Environment

/-! ## Look-up in lists of bindings -/

theorem lookup_binding (binding : String × Value) (rest : List (String × Value)) (name : String) :
    (binding :: rest).lookup name = if name = binding.1 then some binding.2 else rest.lookup name := by
  obtain ⟨key, value⟩ := binding
  rw [List.lookup_cons]
  by_cases h : name = key
  · simp [h]
  · rw [if_neg h, beq_eq_false_iff_ne.2 h]

theorem lookup_insert (name : String) (value : Value) (bindings : List (String × Value)) (other : String) :
    (insert name value bindings).lookup other = if other = name then some value else bindings.lookup other := by
  induction bindings with
  | nil => simp [insert, lookup_binding]
  | cons binding rest ih =>
    simp only [insert]
    split
    · rw [lookup_binding]
    · split
      · rename_i same
        simp only [lookup_binding, same]
        split <;> rfl
      · simp only [lookup_binding, ih]
        grind

theorem lookup_of_mem {bindings : List (String × Value)} (h : Ordered bindings) {b : String × Value} (hb : b ∈ bindings) :
    bindings.lookup b.1 = some b.2 := by
  induction bindings with
  | nil => simp at hb
  | cons binding rest ih =>
    obtain ⟨first, others⟩ := List.pairwise_cons.1 h
    rcases List.mem_cons.1 hb with rfl | hb
    · simp [lookup_binding]
    · have hne : b.1 ≠ binding.1 := fun heq => String.lt_irrefl _ (heq ▸ first b hb)
      simp [lookup_binding, hne, ih others hb]

theorem mem_of_lookup {bindings : List (String × Value)} {name : String} {value : Value}
    (h : bindings.lookup name = some value) : (name, value) ∈ bindings := by
  induction bindings with
  | nil => simp at h
  | cons binding rest ih =>
    rw [lookup_binding] at h
    split at h
    · rename_i hn
      obtain rfl := Option.some.inj h
      exact hn ▸ List.mem_cons_self
    · exact List.mem_cons_of_mem _ (ih h)

theorem Ordered.ext {as bs : List (String × Value)} (ha : Ordered as) (hb : Ordered bs)
    (h : ∀ b, b ∈ as ↔ b ∈ bs) : as = bs := by
  induction as generalizing bs with
  | nil =>
    cases bs with
    | nil => rfl
    | cons b bs => exact absurd ((h b).2 (by simp)) (by simp)
  | cons a as ih =>
    cases bs with
    | nil => exact absurd ((h a).1 (by simp)) (by simp)
    | cons b bs =>
      obtain ⟨afirst, aothers⟩ := List.pairwise_cons.1 ha
      obtain ⟨bfirst, bothers⟩ := List.pairwise_cons.1 hb
      have hab : a = b := by
        rcases List.mem_cons.1 ((h a).1 (by simp)) with hab | hab
        · exact hab
        · rcases List.mem_cons.1 ((h b).2 (by simp)) with hba | hba
          · exact hba.symm
          · exact absurd (bfirst a hab) (String.lt_asymm (afirst b hba))
      subst hab
      congr 1
      refine ih aothers bothers fun c => ⟨fun hc => ?_, fun hc => ?_⟩
      · rcases List.mem_cons.1 ((h c).1 (List.mem_cons_of_mem _ hc)) with rfl | hc'
        · exact absurd (afirst c hc) (String.lt_irrefl _)
        · exact hc'
      · rcases List.mem_cons.1 ((h c).2 (List.mem_cons_of_mem _ hc)) with rfl | hc'
        · exact absurd (bfirst c hc) (String.lt_irrefl _)
        · exact hc'

/-! ## Environments -/

@[simp]
theorem get?_empty (name : String) : empty.get? name = none := rfl

/-- After a binding its name has the new value, and every other name is bound as before. -/
@[simp]
theorem get?_define (env : Environment) (name : String) (value : Value) (other : String) :
    (env.define name value).get? other = if other = name then some value else env.get? other :=
  lookup_insert name value env.bindings other

theorem get?_define_self (env : Environment) (name : String) (value : Value) :
    (env.define name value).get? name = some value := by
  rw [get?_define, if_pos rfl]

theorem get?_define_of_ne (env : Environment) {name other : String} (value : Value) (h : other ≠ name) :
    (env.define name value).get? other = env.get? other := by
  rw [get?_define, if_neg h]

/-- After an unbinding its name is not bound, and every other name is bound as before. -/
@[simp]
theorem get?_remove (env : Environment) (name other : String) :
    (env.remove name).get? other = if other = name then none else env.get? other := by
  have h (bindings : List (String × Value)) :
      (bindings.filter (·.1 != name)).lookup other = if other = name then none else bindings.lookup other := by
    induction bindings with
    | nil => simp
    | cons binding rest ih => grind [lookup_binding]
  exact h env.bindings

/-- Environments that bind the same names to the same values are equal. -/
theorem ext_get? {a b : Environment} (h : ∀ name, a.get? name = b.get? name) : a = b := by
  obtain ⟨as, ha⟩ := a
  obtain ⟨bs, hb⟩ := b
  congr 1
  exact ha.ext hb fun c => ⟨fun hc => mem_of_lookup ((h c.1).symm.trans (lookup_of_mem ha hc)),
    fun hc => mem_of_lookup ((h c.1).trans (lookup_of_mem hb hc))⟩

end SExprLang.Environment
