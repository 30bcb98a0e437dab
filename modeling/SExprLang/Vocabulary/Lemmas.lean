import SExprLang.Environment.Lemmas
import SExprLang.Vocabulary

/-!
# What vocabularies offer

An environment is over a set of actions if its operations perform no others (`Environment.Over`). The environment of a
vocabulary is over what the vocabulary offers (`Vocabulary.environment_over`).
-/

namespace SExprLang

namespace Environment

/-- Every operation that the environment binds performs one of the offered actions. -/
def Over (env : Environment) (offered : Action → Prop) : Prop :=
  ∀ name operation, env.get? name = some (.operation operation) → offered operation.action

theorem Over.define {env : Environment} {offered : Action → Prop} (h : env.Over offered) (name : String) {value : Value}
    (hv : ∀ operation, value = .operation operation → offered operation.action) :
    (env.define name value).Over offered := by
  intro other operation hget
  rw [get?_define] at hget
  split at hget
  · exact hv operation (Option.some.inj hget)
  · exact h other operation hget

/-- What an extended environment binds comes from the extension or was bound before. -/
theorem get?_extend {env : Environment} {bindings : List (String × Value)} {name : String} {value : Value}
    (h : (env.extend bindings).get? name = some value) : (name, value) ∈ bindings ∨ env.get? name = some value := by
  induction bindings generalizing env with
  | nil => exact Or.inr h
  | cons binding rest ih =>
    rcases ih h with hrest | hdefined
    · exact Or.inl (List.mem_cons_of_mem _ hrest)
    · rw [get?_define] at hdefined
      split at hdefined
      · rename_i hname
        obtain rfl := Option.some.inj hdefined
        exact Or.inl (hname ▸ List.mem_cons_self)
      · exact Or.inr hdefined

/-- An extension leaves the names that it does not have. -/
theorem get?_extend_of_ne {env : Environment} {bindings : List (String × Value)} {name : String}
    (h : ∀ binding ∈ bindings, binding.1 ≠ name) : (env.extend bindings).get? name = env.get? name := by
  induction bindings generalizing env with
  | nil => rfl
  | cons binding rest ih =>
    obtain ⟨hfirst, hrest⟩ := List.forall_mem_cons.1 h
    calc ((env.define binding.1 binding.2).extend rest).get? name
        = (env.define binding.1 binding.2).get? name := ih hrest
      _ = env.get? name := by rw [get?_define, if_neg hfirst.symm]

/-- An extension in which no name comes twice makes each of its bindings. -/
theorem get?_extend_of_mem {env : Environment} {bindings : List (String × Value)} {name : String} {value : Value}
    (distinct : (bindings.map Prod.fst).Nodup) (hmem : (name, value) ∈ bindings) :
    (env.extend bindings).get? name = some value := by
  induction bindings generalizing env with
  | nil => cases hmem
  | cons binding rest ih =>
    obtain ⟨hfirst, hrest⟩ := List.nodup_cons.1 distinct
    rcases List.mem_cons.1 hmem with rfl | hmem
    · have hothers : ∀ other ∈ rest, other.1 ≠ name := by
        rintro other hother rfl
        exact hfirst (List.mem_map.2 ⟨other, hother, rfl⟩)
      calc ((env.define name value).extend rest).get? name
          = (env.define name value).get? name := get?_extend_of_ne hothers
        _ = some value := by rw [get?_define, if_pos rfl]
    · exact ih hrest hmem

end Environment

namespace Vocabulary

/-- The vocabulary has the action under some name. -/
def Offers (vocabulary : Vocabulary) (action : Action) : Prop := ∃ name, (name, .action action) ∈ vocabulary.entries

theorem environment_over (vocabulary : Vocabulary) : vocabulary.environment.Over vocabulary.Offers := by
  intro name operation hget
  rcases Environment.get?_extend hget with hmem | hempty
  · obtain ⟨⟨⟨name', entry⟩, serial⟩, hentry, heq⟩ := List.mem_map.1 hmem
    obtain ⟨rfl, hvalue⟩ := Prod.mk.inj heq
    cases entry with
    | constant value => cases hvalue
    | action action =>
      cases hvalue
      exact ⟨name', (List.mem_zipIdx' hentry).2 ▸ List.getElem_mem _⟩
  · cases hempty

theorem names_nodup (vocabulary : Vocabulary) : (vocabulary.entries.map Prod.fst).Nodup := by
  cases vocabulary <;> decide

/-- A vocabulary binds each of its names to the value of the name's entry. -/
theorem exists_get?_environment {vocabulary : Vocabulary} {name : String} {entry : Entry}
    (h : (name, entry) ∈ vocabulary.entries) :
    ∃ serial, vocabulary.environment.get? name = some (entry.toValue serial) := by
  obtain ⟨serial, hserial⟩ := List.mem_iff_getElem?.1 h
  refine ⟨serial, Environment.get?_extend_of_mem ?_ ?_⟩
  · have hnames := vocabulary.names_nodup
    rw [← List.zipIdx_map_fst 0 vocabulary.entries, List.map_map] at hnames
    rw [List.map_map]
    exact hnames
  · exact List.mem_map.2 ⟨((name, entry), serial), List.mem_zipIdx_iff_getElem?.2 hserial, rfl⟩

/-- A vocabulary binds operations and truth values only. -/
theorem kind_of_environment {vocabulary : Vocabulary} {name : String} {value : Value}
    (h : vocabulary.environment.get? name = some value) : value.kind = .operation ∨ value.kind = .bool := by
  rcases Environment.get?_extend h with hmem | hempty
  · obtain ⟨⟨⟨name', entry⟩, serial⟩, _, heq⟩ := List.mem_map.1 hmem
    obtain ⟨_, rfl⟩ := Prod.mk.inj heq
    cases entry with
    | constant value => exact Or.inr rfl
    | action action => exact Or.inl rfl
  · cases hempty

/-- The standard vocabulary offers standard actions only. -/
theorem exists_standard_of_offers {action : Action} (h : standard.Offers action) :
    ∃ what : Action.Standard, action = .standard what := by
  obtain ⟨name, hmem⟩ := h
  cases action with
  | standard what => exact ⟨what, rfl⟩
  | _ => simp [entries] at hmem

/-- Only the core vocabulary lets programs read programs. -/
theorem ne_reflective_of_offers {vocabulary : Vocabulary} (hcore : vocabulary ≠ .core) {action : Action}
    (h : vocabulary.Offers action) (r : Action.Reflective) : action ≠ .reflective r := by
  rintro rfl
  obtain ⟨name, hmem⟩ := h
  cases vocabulary <;> simp [entries, selectEvents] at hmem hcore

end Vocabulary

end SExprLang
