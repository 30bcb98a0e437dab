import SExprLang.Proofs.Batch

/-!
# Up to the first failure

A batch that stops early takes up a beginning of its order: the rows before the first failure, this one, and as many more
as it overruns (`visitUntilFailure_eq`). A row that is taken up is evaluated once, and a row that is not taken up stays as
it is (`visitAll_getElem?`). What is reported is a failure that is left in a row, if there is any (`report_cases`).
-/

namespace SExprLang.Batch

variable {e : Expression} {depth : Nat}

/-! ## Rows that are taken up -/

theorem visit_getElem? {rows rows' : List Row} {i : Nat} (h : visit e depth rows i = some rows') (j : Nat) :
    rows'[j]? = if j = i then rows[j]?.bind (Row.evaluate e depth) else rows[j]? := by
  cases hrow : rows[i]? with
  | none =>
    rw [visit_none hrow] at h
    obtain rfl := Option.some.inj h
    split
    · rename_i hji
      rw [hji, hrow]
      rfl
    · rfl
  | some row =>
    rw [visit_some hrow] at h
    obtain ⟨new, hnew, rfl⟩ := Option.map_eq_some_iff.1 h
    obtain ⟨hi, _⟩ := List.getElem?_eq_some_iff.1 hrow
    split
    · rename_i hji
      rw [hji, hrow, Option.bind_some, hnew, List.getElem?_set_self hi]
    · rename_i hji
      rw [List.getElem?_set_ne (Ne.symm hji)]

theorem visit_length {rows rows' : List Row} {i : Nat} (h : visit e depth rows i = some rows') :
    rows'.length = rows.length := by
  cases hrow : rows[i]? with
  | none =>
    rw [visit_none hrow] at h
    rw [Option.some.inj h]
  | some row =>
    rw [visit_some hrow] at h
    obtain ⟨new, _, rfl⟩ := Option.map_eq_some_iff.1 h
    exact List.length_set

theorem visitAll_length {rows rows' : List Row} {order : List Nat} (h : visitAll e depth rows order = some rows') :
    rows'.length = rows.length := by
  induction order generalizing rows with
  | nil => rw [Option.some.inj h]
  | cons i order ih =>
    obtain ⟨rows₁, hvisit, hrest⟩ := Option.bind_eq_some_iff.1 h
    rw [ih hrest, visit_length hvisit]

/-- Every row that is taken up is evaluated, and the others stay as they are. -/
theorem visitAll_getElem? {rows rows' : List Row} {order : List Nat} (hnodup : order.Nodup)
    (h : visitAll e depth rows order = some rows') (j : Nat) :
    rows'[j]? = if j ∈ order then rows[j]?.bind (Row.evaluate e depth) else rows[j]? := by
  induction order generalizing rows with
  | nil =>
    obtain rfl := Option.some.inj h
    rfl
  | cons i order ih =>
    obtain ⟨hi, hnodup⟩ := List.nodup_cons.1 hnodup
    obtain ⟨rows₁, hvisit, hrest⟩ := Option.bind_eq_some_iff.1 h
    rw [ih hnodup hrest, visit_getElem? hvisit]
    by_cases hji : j = i
    · subst hji
      simp [hi]
    · simp [hji]

/-- Rows can be taken up if their evaluations end. -/
theorem visitAll_isSome {rows : List Row} {order : List Nat} (hnodup : order.Nodup)
    (h : ∀ i ∈ order, ∀ row, rows[i]? = some row → (row.evaluate e depth).isSome) :
    (visitAll e depth rows order).isSome := by
  induction order generalizing rows with
  | nil => rfl
  | cons i order ih =>
    obtain ⟨hi, hnodup⟩ := List.nodup_cons.1 hnodup
    obtain ⟨hfirst, hrest⟩ := List.forall_mem_cons.1 h
    have hvisit : (visit e depth rows i).isSome := by
      cases hrow : rows[i]? with
      | none => rw [visit_none hrow]; rfl
      | some row => rw [visit_some hrow, Option.isSome_map]; exact hfirst row hrow
    obtain ⟨rows₁, hrows₁⟩ := Option.isSome_iff_exists.1 hvisit
    rw [visitAll, List.foldlM_cons, hrows₁]
    refine ih hnodup fun j hj row hrow => hrest j hj row ?_
    have hji : j ≠ i := fun hji => hi (hji ▸ hj)
    rwa [visit_getElem? hrows₁, if_neg hji] at hrow

/-! ## The first failure -/

/-- The numbers of an order up to the first that fails, and `overrun` more. -/
def takenUp (fails : Nat → Bool) (overrun : Nat) : List Nat → List Nat
  | [] => []
  | i :: order => i :: if fails i then order.take overrun else takenUp fails overrun order

section

variable {fails : Nat → Bool} {overrun : Nat}

theorem takenUp_congr {fails' : Nat → Bool} {order : List Nat} (h : ∀ i ∈ order, fails i = fails' i) :
    takenUp fails overrun order = takenUp fails' overrun order := by
  induction order with
  | nil => rfl
  | cons i order ih =>
    obtain ⟨hi, hrest⟩ := List.forall_mem_cons.1 h
    rw [takenUp, takenUp, hi, ih hrest]

theorem takenUp_isPrefix (order : List Nat) : takenUp fails overrun order <+: order := by
  induction order with
  | nil => exact List.prefix_refl []
  | cons i order ih =>
    rw [takenUp, List.prefix_cons_inj]
    split
    · exact List.take_prefix overrun order
    · exact ih

/-- All is taken up as long as nothing fails. -/
theorem takenUp_append {order : List Nat} (h : ∀ i ∈ order, fails i = false) (rest : List Nat) :
    takenUp fails overrun (order ++ rest) = order ++ takenUp fails overrun rest := by
  induction order with
  | nil => rfl
  | cons i order ih =>
    obtain ⟨hi, hrest⟩ := List.forall_mem_cons.1 h
    rw [List.cons_append, takenUp, hi, ih hrest]
    rfl

/-- If something fails, then so does something that is taken up. -/
theorem exists_fails_of_mem {order : List Nat} {i : Nat} (hmem : i ∈ order) (h : fails i = true) :
    ∃ j ∈ takenUp fails overrun order, fails j = true := by
  induction order with
  | nil => cases hmem
  | cons j order ih =>
    rw [takenUp]
    by_cases hj : fails j = true
    · exact ⟨j, List.mem_cons_self, hj⟩
    · have hne : i ≠ j := fun heq => hj (heq ▸ h)
      obtain ⟨k, hk, hfails⟩ := ih (List.mem_of_ne_of_mem hne hmem)
      rw [if_neg hj]
      exact ⟨k, List.mem_cons_of_mem j hk, hfails⟩

end

/-- The error of row `i`, should it be evaluated and fail. -/
def failureAt (e : Expression) (depth : Nat) (rows : List Row) (i : Nat) : Option EvalError :=
  (rows[i]?.bind (Row.evaluate e depth)).bind Row.failure?

/-- **Stopping at a failure is taking up a beginning of the order.** -/
theorem visitUntilFailure_eq (overrun : Nat) {rows : List Row} {order : List Nat} (hnodup : order.Nodup) :
    visitUntilFailure e depth overrun rows order =
      visitAll e depth rows (takenUp (fun i => (failureAt e depth rows i).isSome) overrun order) := by
  induction order generalizing rows with
  | nil => rfl
  | cons i order ih =>
    obtain ⟨hi, hnodup⟩ := List.nodup_cons.1 hnodup
    rw [visitUntilFailure, takenUp, visitAll, List.foldlM_cons]
    cases hvisit : visit e depth rows i with
    | none => rfl
    | some rows₁ =>
      have hfailure : rows₁[i]?.bind Row.failure? = failureAt e depth rows i := by
        rw [visit_getElem? hvisit, if_pos rfl, failureAt]
      -- the visit of a row does not change what becomes of the others
      have hlater : ∀ j ∈ order, (failureAt e depth rows₁ j).isSome = (failureAt e depth rows j).isSome := by
        intro j hj
        have hji : j ≠ i := fun hji => hi (hji ▸ hj)
        rw [failureAt, visit_getElem? hvisit, if_neg hji, failureAt]
      simp only [Option.bind_eq_bind, Option.bind_some, hfailure]
      cases failureAt e depth rows i with
      | some error => rfl
      | none =>
        rw [ih hnodup, takenUp_congr hlater]
        rfl

/-! ## What is reported -/

/-- The failure that is reported, or the values of all rows if there is none. -/
def Schedule.report (schedule : Schedule) (rows : List Row) : Except EvalError (List Value) :=
  let failures := schedule.order.filterMap fun i => rows[i]?.bind Row.failure?
  match failures[schedule.reported]?.or failures.head? with
  | some error => .error error
  | none => .ok (rows.filterMap Row.value?)

theorem Schedule.report_cases (schedule : Schedule) (rows : List Row) :
    (∃ error, schedule.report rows = .error error ∧ ∃ i ∈ schedule.order, rows[i]?.bind Row.failure? = some error) ∨
    schedule.report rows = .ok (rows.filterMap Row.value?) ∧
      ∀ i ∈ schedule.order, rows[i]?.bind Row.failure? = none := by
  unfold Schedule.report
  generalize hfailures : schedule.order.filterMap (fun i => rows[i]?.bind Row.failure?) = failures
  simp only
  split
  · rename_i error hreported
    have hmem : error ∈ failures := by
      rcases Option.or_eq_some_iff.1 hreported with hat | ⟨_, hhead⟩
      · exact List.mem_of_getElem? hat
      · exact List.mem_of_head? hhead
    rw [← hfailures] at hmem
    exact Or.inl ⟨error, rfl, List.mem_filterMap.1 hmem⟩
  · rename_i hreported
    have hnil : failures = [] := List.head?_eq_none_iff.1 (Option.or_eq_none_iff.1 hreported).2
    rw [hnil] at hfailures
    exact Or.inr ⟨rfl, List.filterMap_eq_nil_iff.1 hfailures⟩

/-- Rows of which none has failed have the outcomes of their values. -/
theorem filterMap_outcome_eq {rows : List Row} (h : ∀ row ∈ rows, row.failure? = none) :
    rows.filterMap (·.outcome) = (rows.filterMap Row.value?).map .ok := by
  rw [List.map_filterMap]
  refine List.filterMap_congr fun row hmem => ?_
  have hrow := h row hmem
  obtain ⟨machine, outcome⟩ := row
  match outcome, hrow with
  | none, _ => rfl
  | some (.ok value), _ => rfl

/-- Rows with the outcomes of values have not failed. -/
theorem failure?_eq_none_of_outcomes {rows : List Row} {values : List Value}
    (h : rows.filterMap (·.outcome) = values.map .ok) : ∀ row ∈ rows, row.failure? = none := by
  intro row hmem
  obtain ⟨machine, outcome⟩ := row
  match outcome, hmem with
  | none, _ => rfl
  | some (.ok value), _ => rfl
  | some (.error error), hmem =>
    have herror : Except.error error ∈ rows.filterMap (·.outcome) := List.mem_filterMap.2 ⟨_, hmem, rfl⟩
    rw [h] at herror
    simp at herror

end SExprLang.Batch
