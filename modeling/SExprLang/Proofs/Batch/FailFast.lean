import SExprLang.Proofs.Batch.FirstFailure

/-!
# Batches that stop at a failure

`RowEnds` says how a row of a batch ends if it is taken up, and this does not hang on the batch: a batch that does not stop
has it for all of its rows (`rowEnds_iff_of_evaluate`), and one that stops for those that it takes up (`tryEvaluate_cases`).
So the latter has values exactly if all rows have, and its error is the one of a row that fails. `tryEvaluate_agrees` says
this of every plan and schedule, and which row it is without a pool.
-/

namespace SExprLang.Batch

variable {e : Expression} {depth : Nat}

/-! ## How a row ends -/

section

variable (e : Expression) (depth serial : Nat) (environments : List Environment)

/-- Row `i` of a batch ends with the outcome and leaves the environment `after`, if it is taken up. -/
def RowEnds (i : Nat) (outcome : Except EvalError Value) (after : Environment) : Prop :=
  ∃ machine, (machines serial environments)[i]?.bind (Machine.evaluate · e depth) = some (outcome, machine) ∧
    machine.env = after

/-- No row ends with an error. -/
def NoneFails : Prop := ∀ i error after, ¬RowEnds e depth serial environments i (.error error) after

theorem ofEnvironments_eq_map :
    Row.ofEnvironments serial environments = (machines serial environments).map (⟨·, none⟩) := by
  simp [Row.ofEnvironments, machines, Function.comp_def]

theorem evaluated_eq (i : Nat) : (Row.ofEnvironments serial environments)[i]?.bind (Row.evaluate e depth) =
    ((machines serial environments)[i]?.bind (Machine.evaluate · e depth)).map .ofRun := by
  rw [ofEnvironments_eq_map, List.getElem?_map]
  cases (machines serial environments)[i]? <;> rfl

end

section

variable {serial : Nat} {environments : List Environment} {i : Nat}

/-- How a row ends can be computed. -/
theorem rowEnds_iff {outcome : Except EvalError Value} {after : Environment} :
    RowEnds e depth serial environments i outcome after ↔
      ((machines serial environments)[i]?.bind (Machine.evaluate · e depth)).map
        (fun (outcome, machine) => (outcome, machine.env)) = some (outcome, after) := by
  unfold RowEnds
  cases (machines serial environments)[i]?.bind (Machine.evaluate · e depth) <;> simp [Prod.ext_iff]

instance {outcome : Except EvalError Value} {after : Environment} :
    Decidable (RowEnds e depth serial environments i outcome after) :=
  decidable_of_iff _ rowEnds_iff.symm

theorem RowEnds.unique {outcome outcome' : Except EvalError Value} {after after' : Environment}
    (h : RowEnds e depth serial environments i outcome after) (h' : RowEnds e depth serial environments i outcome' after') :
    outcome = outcome' ∧ after = after' :=
  Prod.mk.inj (Option.some.inj ((rowEnds_iff.1 h).symm.trans (rowEnds_iff.1 h')))

theorem RowEnds.lt {outcome : Except EvalError Value} {after : Environment}
    (h : RowEnds e depth serial environments i outcome after) : i < environments.length := by
  obtain ⟨machine, hrun, _⟩ := h
  obtain ⟨start, hstart, _⟩ := Option.bind_eq_some_iff.1 hrun
  rw [← length_machines serial environments]
  exact (List.getElem?_eq_some_iff.1 hstart).1

theorem failureAt_eq_some_iff {error : EvalError} :
    failureAt e depth (Row.ofEnvironments serial environments) i = some error ↔
      ∃ after, RowEnds e depth serial environments i (.error error) after := by
  rw [failureAt, evaluated_eq]
  unfold RowEnds
  cases (machines serial environments)[i]?.bind (Machine.evaluate · e depth) with
  | none => simp
  | some run =>
    obtain ⟨outcome, machine⟩ := run
    cases outcome <;> simp [Row.ofRun, Row.failure?]

theorem noneFails_iff : NoneFails e depth serial environments ↔
    ∀ i, failureAt e depth (Row.ofEnvironments serial environments) i = none := by
  simp only [NoneFails, Option.eq_none_iff_forall_ne_some, ne_eq, failureAt_eq_some_iff, not_exists]

end

/-! ## Rows after visits -/

section

variable {serial : Nat} {environments : List Environment} {visited : List Nat} {rows : List Row}

/-- Rows can be taken up if they end. -/
theorem exists_visitAll (hnodup : visited.Nodup)
    (h : ∀ i ∈ visited, ∃ outcome after, RowEnds e depth serial environments i outcome after) :
    ∃ rows, visitAll e depth (Row.ofEnvironments serial environments) visited = some rows := by
  refine Option.isSome_iff_exists.1 (visitAll_isSome hnodup fun i hi row hrow => ?_)
  obtain ⟨_, _, machine, hrun, _⟩ := h i hi
  have hevaluated := evaluated_eq e depth serial environments i
  rw [hrun, hrow, Option.bind_some] at hevaluated
  rw [hevaluated]
  rfl

variable (hnodup : visited.Nodup) (h : visitAll e depth (Row.ofEnvironments serial environments) visited = some rows)
include hnodup h

/-- After the visits, the rows that have failed are those that were taken up and fail. -/
theorem failure?_of_visitAll (i : Nat) : rows[i]?.bind Row.failure? =
    if i ∈ visited then failureAt e depth (Row.ofEnvironments serial environments) i else none := by
  rw [visitAll_getElem? hnodup h]
  split
  · rfl
  · rw [ofEnvironments_eq_map, List.getElem?_map]
    cases (machines serial environments)[i]? <;> rfl

/-- After the visits, a row that was not taken up is untouched. -/
theorem env_of_not_mem {i : Nat} (hi : i ∉ visited) : (rows.map (·.machine.env))[i]? = environments[i]? := by
  rw [List.getElem?_map, visitAll_getElem? hnodup h, if_neg hi, Row.ofEnvironments, List.getElem?_map,
    List.getElem?_zipIdx]
  cases environments[i]? <;> rfl

/-- After the visits, a row that was taken up has ended. -/
theorem env_of_mem {i : Nat} (hi : i ∈ visited) (hlt : i < environments.length) :
    ∃ outcome after, RowEnds e depth serial environments i outcome after ∧ (rows.map (·.machine.env))[i]? = some after := by
  have hlength : rows.length = environments.length := by
    rw [visitAll_length h, ofEnvironments_eq_map, List.length_map, length_machines]
  have hrow : rows[i]? = some rows[i] := List.getElem?_eq_getElem (by omega)
  have hrun : rows[i]? = ((machines serial environments)[i]?.bind (Machine.evaluate · e depth)).map .ofRun := by
    rw [visitAll_getElem? hnodup h, if_pos hi, evaluated_eq]
  obtain ⟨⟨outcome, machine⟩, hends, hof⟩ := Option.map_eq_some_iff.1 (hrun.symm.trans hrow)
  refine ⟨outcome, machine.env, ⟨machine, hends, rfl⟩, ?_⟩
  rw [List.getElem?_map, hrow, ← hof]
  rfl

end

/-- If all rows are taken up, then none is left with a failure iff none fails. -/
theorem forall_failure?_iff {serial : Nat} {environments : List Environment} {rows : List Row}
    (h : visitAll e depth (Row.ofEnvironments serial environments) (List.range environments.length) = some rows) :
    (∀ row ∈ rows, row.failure? = none) ↔ NoneFails e depth serial environments := by
  have hfailure := failure?_of_visitAll List.nodup_range h
  rw [noneFails_iff]
  constructor
  · intro hall i
    have hi := hfailure i
    split at hi
    · rw [← hi, Option.bind_eq_none_iff]
      exact fun row hrow => hall row (List.mem_of_getElem? hrow)
    · rename_i hlt
      by_contra hsome
      obtain ⟨error, herror⟩ := Option.ne_none_iff_exists'.1 hsome
      obtain ⟨_, hends⟩ := failureAt_eq_some_iff.1 herror
      exact hlt (List.mem_range.2 hends.lt)
  · intro hnone row hmem
    obtain ⟨i, hi⟩ := List.getElem?_of_mem hmem
    have hrow := hfailure i
    rw [hi, Option.bind_some, hnone, ite_self] at hrow
    exact hrow

/-! ## Batches that do not stop -/

section

variable (config : Config) {onPool : Schedule} {serial : Nat} {environments : List Environment}
  (horder : onPool.order.Perm (List.range environments.length))
include horder

theorem evaluate_eq_visitAll : evaluate config onPool e serial environments depth =
    (visitAll e depth (Row.ofEnvironments serial environments) (List.range environments.length)).map fun rows =>
      (rows.filterMap (·.outcome), config.result false serial rows) := by
  simp only [evaluate, visitAll_perm (config.schedule_order_perm horder)]
  cases visitAll e depth (Row.ofEnvironments serial environments) (List.range environments.length) <;> rfl

/-- A batch that does not stop has an outcome iff all of its rows end. -/
theorem evaluate_isSome_iff_rowEnds : (evaluate config onPool e serial environments depth).isSome ↔
    ∀ i < environments.length, ∃ outcome after, RowEnds e depth serial environments i outcome after := by
  rw [evaluate_eq_visitAll config horder, Option.isSome_map, Option.isSome_iff_exists]
  constructor
  · rintro ⟨rows, hrows⟩ i hlt
    obtain ⟨outcome, after, hends, _⟩ := env_of_mem List.nodup_range hrows (List.mem_range.2 hlt) hlt
    exact ⟨outcome, after, hends⟩
  · intro h
    exact exists_visitAll List.nodup_range fun i hi => h i (List.mem_range.1 hi)

/-- What it has for a row is how the row ends. -/
theorem rowEnds_iff_of_evaluate {outcomes : List (Except EvalError Value)} {full : Result}
    (h : evaluate config onPool e serial environments depth = some (outcomes, full)) (i : Nat)
    (outcome : Except EvalError Value) (after : Environment) :
    RowEnds e depth serial environments i outcome after ↔
      outcomes[i]? = some outcome ∧ full.environments[i]? = some after := by
  rw [evaluate_eq config serial horder] at h
  obtain ⟨runs, hruns, heq⟩ := Option.map_eq_some_iff.1 h
  obtain ⟨rfl, rfl⟩ := Prod.mk.inj heq
  obtain ⟨hlength, hitems⟩ := getElem?_of_mapM hruns
  have hrun : (machines serial environments)[i]?.bind (Machine.evaluate · e depth) = runs[i]? := by
    cases hmachine : (machines serial environments)[i]? with
    | none =>
      rw [List.getElem?_eq_none_iff] at hmachine
      exact (List.getElem?_eq_none_iff.2 (hlength ▸ hmachine)).symm
    | some machine =>
      obtain ⟨run, hget, hevaluate⟩ := hitems i machine hmachine
      rw [hget]
      exact hevaluate
  unfold RowEnds
  rw [hrun, Config.result, List.getElem?_map, List.getElem?_map, List.getElem?_map]
  cases runs[i]? with
  | none => simp
  | some run =>
    obtain ⟨outcome', machine⟩ := run
    simp [Row.ofRun]

end

/-! ## Batches that stop -/

/-- The rows that a batch takes up which stops at a failure. -/
def taken (config : Config) (onPool : Schedule) (e : Expression) (serial : Nat) (environments : List Environment)
    (depth : Nat) : List Nat :=
  takenUp (fun i => (failureAt e depth (Row.ofEnvironments serial environments) i).isSome)
    (config.schedule onPool environments.length).overrun (config.schedule onPool environments.length).order

section

variable (config : Config) {onPool : Schedule} {serial : Nat} {environments : List Environment}
  (horder : onPool.order.Perm (List.range environments.length))
include horder

theorem nodup_schedule_order : (config.schedule onPool environments.length).order.Nodup :=
  (config.schedule_order_perm horder).nodup_iff.2 List.nodup_range

theorem mem_schedule_order (i : Nat) :
    i ∈ (config.schedule onPool environments.length).order ↔ i < environments.length :=
  (config.schedule_order_perm horder).mem_iff.trans List.mem_range

theorem taken_nodup : (taken config onPool e serial environments depth).Nodup :=
  (nodup_schedule_order config horder).sublist (takenUp_isPrefix _).sublist

theorem lt_of_mem_taken {i : Nat} (h : i ∈ taken config onPool e serial environments depth) : i < environments.length :=
  (mem_schedule_order config horder i).1 ((takenUp_isPrefix _).subset h)

/-- If some row fails, then so does one that is taken up. -/
theorem exists_failureAt_taken {i : Nat} {error : EvalError} {after : Environment}
    (h : RowEnds e depth serial environments i (.error error) after) :
    ∃ j ∈ taken config onPool e serial environments depth,
      (failureAt e depth (Row.ofEnvironments serial environments) j).isSome := by
  refine exists_fails_of_mem ((mem_schedule_order config horder i).2 h.lt) ?_
  rw [failureAt_eq_some_iff.2 ⟨after, h⟩]
  rfl

/-- If no row fails, then all rows are taken up. -/
theorem visitAll_taken (h : NoneFails e depth serial environments) :
    visitAll e depth (Row.ofEnvironments serial environments) (taken config onPool e serial environments depth) =
      visitAll e depth (Row.ofEnvironments serial environments) (List.range environments.length) := by
  have hall : taken config onPool e serial environments depth = (config.schedule onPool environments.length).order := by
    unfold taken
    rw [← List.append_nil (config.schedule onPool environments.length).order, takenUp_append]
    · rfl
    · intro i _
      rw [noneFails_iff.1 h]
      rfl
  rw [hall, visitAll_perm (config.schedule_order_perm horder)]

theorem tryEvaluate_eq : tryEvaluate config onPool e serial environments depth =
    (visitAll e depth (Row.ofEnvironments serial environments)
      (taken config onPool e serial environments depth)).map fun rows =>
        ((config.schedule onPool environments.length).report rows, config.result true serial rows) := by
  simp only [tryEvaluate, visitUntilFailure_eq _ (nodup_schedule_order config horder), taken]
  generalize visitAll e depth (Row.ofEnvironments serial environments) _ = visited
  cases visited <;> rfl

/-- The outcome is the error of a row that was taken up, or else no row fails and it is the values. -/
theorem tryEvaluate_cases {outcome : Except EvalError (List Value)} {result : Result}
    (h : tryEvaluate config onPool e serial environments depth = some (outcome, result)) :
    ∃ rows, visitAll e depth (Row.ofEnvironments serial environments)
        (taken config onPool e serial environments depth) = some rows ∧
      result.environments = rows.map (·.machine.env) ∧
      ((∃ error, outcome = .error error ∧ ∃ i ∈ taken config onPool e serial environments depth,
        ∃ after, RowEnds e depth serial environments i (.error error) after) ∨
      outcome = .ok (rows.filterMap Row.value?) ∧ NoneFails e depth serial environments) := by
  rw [tryEvaluate_eq config horder] at h
  obtain ⟨rows, hrows, heq⟩ := Option.map_eq_some_iff.1 h
  obtain ⟨rfl, rfl⟩ := Prod.mk.inj heq
  have hfailure := failure?_of_visitAll (taken_nodup config horder) hrows
  refine ⟨rows, hrows, rfl, ?_⟩
  rcases (config.schedule onPool environments.length).report_cases rows with ⟨error, hreport, i, _, hi⟩ | ⟨hreport, hnone⟩
  · rw [hfailure] at hi
    split at hi
    · rename_i htaken
      exact Or.inl ⟨error, hreport, i, htaken, failureAt_eq_some_iff.1 hi⟩
    · cases hi
  · refine Or.inr ⟨hreport, fun i error after hends => ?_⟩
    -- a row that fails would leave a failure among those that were taken up
    obtain ⟨j, hj, hjfails⟩ := exists_failureAt_taken config horder hends
    have hjnone := hnone j ((mem_schedule_order config horder j).2 (lt_of_mem_taken config horder hj))
    rw [hfailure, if_pos hj] at hjnone
    rw [hjnone] at hjfails
    cases hjfails

/-- There is an outcome if the rows that are taken up end. -/
theorem exists_tryEvaluate (h : ∀ i ∈ taken config onPool e serial environments depth,
    ∃ outcome after, RowEnds e depth serial environments i outcome after) :
    ∃ outcome result, tryEvaluate config onPool e serial environments depth = some (outcome, result) := by
  obtain ⟨rows, hrows⟩ := exists_visitAll (taken_nodup config horder) h
  rw [tryEvaluate_eq config horder, hrows]
  exact ⟨_, _, rfl⟩

/-! ## Values -/

/-- A batch that stops has values iff one that does not stop has them, and then both leave the same environments. -/
theorem tryEvaluate_ok_iff_evaluate (config' : Config) {onPool' : Schedule}
    (horder' : onPool'.order.Perm (List.range environments.length)) (values : List Value) (after : List Environment) :
    (∃ result, tryEvaluate config onPool e serial environments depth = some (.ok values, result) ∧
        result.environments = after) ↔
      ∃ full, evaluate config' onPool' e serial environments depth = some (values.map .ok, full) ∧
        full.environments = after := by
  rw [evaluate_eq_visitAll config' horder']
  constructor
  · rintro ⟨result, h, rfl⟩
    obtain ⟨rows, hrows, henvs, ⟨_, herror, _⟩ | ⟨hok, hnone⟩⟩ := tryEvaluate_cases config horder h
    · cases herror
    · obtain rfl := Except.ok.inj hok
      rw [visitAll_taken config horder hnone] at hrows
      have houtcomes := filterMap_outcome_eq ((forall_failure?_iff hrows).2 hnone)
      rw [hrows, Option.map_some, houtcomes]
      exact ⟨_, rfl, henvs.symm⟩
  · rintro ⟨full, h, rfl⟩
    obtain ⟨rows, hrows, heq⟩ := Option.map_eq_some_iff.1 h
    obtain ⟨houtcomes, rfl⟩ := Prod.mk.inj heq
    have hall := failure?_eq_none_of_outcomes houtcomes
    have hnone := (forall_failure?_iff hrows).1 hall
    have htry : tryEvaluate config onPool e serial environments depth =
        some ((config.schedule onPool environments.length).report rows, config.result true serial rows) := by
      rw [tryEvaluate_eq config horder, visitAll_taken config horder hnone, hrows]
      rfl
    obtain ⟨rows', hrows', _, ⟨error, _, i, _, after, hfails⟩ | ⟨hok, _⟩⟩ := tryEvaluate_cases config horder htry
    · exact absurd hfails (hnone i error after)
    · rw [visitAll_taken config horder hnone, hrows] at hrows'
      obtain rfl := Option.some.inj hrows'
      rw [filterMap_outcome_eq hall] at houtcomes
      have hvalues : rows.filterMap Row.value? = values :=
        List.map_injective_iff.2 (fun _ _ => Except.ok.inj) houtcomes
      rw [hok, hvalues] at htry
      exact ⟨_, htry, rfl⟩

/-- A batch that stops has values iff every row has one. -/
theorem tryEvaluate_ok_iff :
    (∃ values result, tryEvaluate config onPool e serial environments depth = some (.ok values, result)) ↔
      ∀ i < environments.length, ∃ value after, RowEnds e depth serial environments i (.ok value) after := by
  constructor
  · rintro ⟨values, result, h⟩ i hlt
    obtain ⟨rows, hrows, _, ⟨_, herror, _⟩ | ⟨_, hnone⟩⟩ := tryEvaluate_cases config horder h
    · cases herror
    · rw [visitAll_taken config horder hnone] at hrows
      obtain ⟨outcome, after, hends, _⟩ := env_of_mem List.nodup_range hrows (List.mem_range.2 hlt) hlt
      cases outcome with
      | ok value => exact ⟨value, after, hends⟩
      | error error => exact absurd hends (hnone i error after)
  · intro h
    obtain ⟨outcome, result, htry⟩ := exists_tryEvaluate config horder fun i hi => by
      obtain ⟨value, after, hends⟩ := h i (lt_of_mem_taken config horder hi)
      exact ⟨_, after, hends⟩
    obtain ⟨rows, _, _, ⟨error, _, i, _, after, hfails⟩ | ⟨rfl, _⟩⟩ := tryEvaluate_cases config horder htry
    · obtain ⟨value, after', hends⟩ := h i hfails.lt
      cases (hfails.unique hends).1
    · exact ⟨_, result, htry⟩

/-! ## Errors -/

/-- The error is that of a row that fails, and every row has ended or is untouched. -/
theorem tryEvaluate_error {error : EvalError} {result : Result}
    (h : tryEvaluate config onPool e serial environments depth = some (.error error, result)) :
    (∃ i after, RowEnds e depth serial environments i (.error error) after) ∧
    ∀ i, result.environments[i]? = environments[i]? ∨
      ∃ outcome after, RowEnds e depth serial environments i outcome after ∧ result.environments[i]? = some after := by
  obtain ⟨rows, hrows, henvs, ⟨_, herror, i, _, hfails⟩ | ⟨hok, _⟩⟩ := tryEvaluate_cases config horder h
  · obtain rfl := Except.error.inj herror
    refine ⟨⟨i, hfails⟩, fun j => ?_⟩
    rw [henvs]
    by_cases hj : j ∈ taken config onPool e serial environments depth
    · exact Or.inr (env_of_mem (taken_nodup config horder) hrows hj (lt_of_mem_taken config horder hj))
    · exact Or.inl (env_of_not_mem (taken_nodup config horder) hrows hj)
  · cases hok

/-- If one alone fails of the rows that are taken up, then its error is reported. -/
theorem tryEvaluate_of_sole_failure {k : Nat} {error : EvalError}
    (hk : ∃ after, RowEnds e depth serial environments k (.error error) after)
    (hothers : ∀ i ∈ taken config onPool e serial environments depth, i ≠ k →
      ∃ value after, RowEnds e depth serial environments i (.ok value) after) :
    ∃ result, tryEvaluate config onPool e serial environments depth = some (.error error, result) := by
  obtain ⟨after, hends⟩ := hk
  obtain ⟨outcome, result, htry⟩ := exists_tryEvaluate config horder fun i hi => by
    by_cases hik : i = k
    · exact ⟨_, after, hik ▸ hends⟩
    · obtain ⟨value, after', hvalue⟩ := hothers i hi hik
      exact ⟨_, after', hvalue⟩
  obtain ⟨rows, _, _, ⟨error', rfl, i, hi, after', hfails⟩ | ⟨_, hnone⟩⟩ := tryEvaluate_cases config horder htry
  · by_cases hik : i = k
    · obtain rfl := Except.error.inj (hends.unique (hik ▸ hfails)).1
      exact ⟨result, htry⟩
    · obtain ⟨value, _, hvalue⟩ := hothers i hi hik
      cases (hfails.unique hvalue).1
  · exact absurd hends (hnone k error after)

omit horder in
/-- Without a pool the rows are taken up in order, and none after the first that fails. -/
theorem taken_of_isInline (hinline : config.isInline environments.length = true) {k : Nat} {error : EvalError}
    {after : Environment} (hbefore : ∀ i < k, ∃ value after, RowEnds e depth serial environments i (.ok value) after)
    (hk : RowEnds e depth serial environments k (.error error) after) :
    taken config onPool e serial environments depth = List.range (k + 1) := by
  have hlt := hk.lt
  obtain ⟨m, hm⟩ : ∃ m, environments.length = k + (m + 1) := ⟨environments.length - (k + 1), by omega⟩
  have hsplit : List.range environments.length = List.range k ++ k :: (List.range m).map (k + ·.succ) := by
    rw [hm, List.range_add, List.range_succ_eq_map]
    simp
  have hok : ∀ i ∈ List.range k, (failureAt e depth (Row.ofEnvironments serial environments) i).isSome = false := by
    intro i hi
    obtain ⟨value, _, hvalue⟩ := hbefore i (List.mem_range.1 hi)
    rw [Option.isSome_eq_false_iff, Option.isNone_iff_eq_none, Option.eq_none_iff_forall_ne_some]
    intro error' herror
    obtain ⟨_, hfails⟩ := failureAt_eq_some_iff.1 herror
    cases (hfails.unique hvalue).1
  rw [taken, Config.schedule, if_pos hinline]
  show takenUp _ 0 (List.range environments.length) = _
  rw [hsplit, takenUp_append hok, takenUp, failureAt_eq_some_iff.2 ⟨after, hk⟩, List.range_succ]
  rfl

/-- Without a pool, the error is that of the first row that fails; the rows up to it have ended, and the rows after it are
untouched. -/
theorem tryEvaluate_of_isInline (hinline : config.isInline environments.length = true) {k : Nat} {error : EvalError}
    (hbefore : ∀ i < k, ∃ value after, RowEnds e depth serial environments i (.ok value) after)
    (hk : ∃ after, RowEnds e depth serial environments k (.error error) after) :
    ∃ result, tryEvaluate config onPool e serial environments depth = some (.error error, result) ∧
      (∀ i ≤ k, ∃ outcome after, RowEnds e depth serial environments i outcome after ∧
        result.environments[i]? = some after) ∧
      ∀ i, k < i → result.environments[i]? = environments[i]? := by
  obtain ⟨after, hends⟩ := hk
  have hlt := hends.lt
  have htaken : taken config onPool e serial environments depth = List.range (k + 1) :=
    taken_of_isInline config hinline hbefore hends
  obtain ⟨result, htry⟩ := tryEvaluate_of_sole_failure config horder ⟨after, hends⟩ fun i hi hik => by
    rw [htaken, List.mem_range] at hi
    exact hbefore i (by omega)
  obtain ⟨rows, hrows, henvs, _⟩ := tryEvaluate_cases config horder htry
  rw [htaken] at hrows
  refine ⟨result, htry, ?_, ?_⟩
  · intro i hi
    rw [henvs]
    exact env_of_mem List.nodup_range hrows (List.mem_range.2 (by omega)) (by omega)
  · intro i hi
    rw [henvs]
    exact env_of_not_mem List.nodup_range hrows (by rw [List.mem_range]; omega)

end

/-! ## The main result -/

/-- A row ends iff a run on its own does, and then alike. -/
theorem rowEnds_asAlone (e : Expression) (depth serial : Nat) {environments : List Environment} {i : Nat}
    {env : Environment} (henv : environments[i]? = some env) (hover : env.Over Action.IsPlain) :
    ((∃ outcome after, RowEnds e depth serial environments i outcome after) ↔
      ((Machine.ofEnvironment env serial).evaluate e depth).isSome) ∧
    ∀ outcome after, RowEnds e depth serial environments i outcome after → AsAlone e depth serial i env outcome after := by
  have hmachine : (machines serial environments)[i]? = some ⟨env, i + 1, serial, []⟩ :=
    (getElem?_machines_eq_some_iff serial environments i _).2 ⟨env, henv, rfl⟩
  unfold RowEnds
  rw [hmachine, Option.bind_some, ← row_isSome_iff e depth serial i hover, Option.isSome_iff_exists]
  refine ⟨⟨?_, ?_⟩, ?_⟩
  · rintro ⟨outcome, _, machine, hrun, _⟩
    exact ⟨(outcome, machine), hrun⟩
  · rintro ⟨⟨outcome, machine⟩, hrun⟩
    exact ⟨outcome, machine.env, machine, hrun, rfl⟩
  · rintro outcome _ ⟨machine, hrun, rfl⟩
    exact row_asAlone e depth serial i hover hrun

/-- **A batch that stops at a failure agrees with one that does not.** What the latter has for a row, whatever its plan and
schedule, is how the row ends, and a row ends as it does alone. The batch that stops has values iff all rows have, namely
the same ones, and then leaves the same environments. If a row fails, the error is that of a failing row, and every row has
ended or is untouched; without a pool it is the first failing row, and exactly the rows up to it have ended. If just one row
fails, then every plan and schedule reports it. -/
theorem tryEvaluate_agrees (config config' : Config) (onPool onPool' : Schedule) (e : Expression) (depth serial : Nat)
    (environments : List Environment) (horder : onPool.order.Perm (List.range environments.length))
    (horder' : onPool'.order.Perm (List.range environments.length)) :
    ((evaluate config' onPool' e serial environments depth).isSome ↔
      ∀ i < environments.length, ∃ outcome after, RowEnds e depth serial environments i outcome after) ∧
    (∀ outcomes full, evaluate config' onPool' e serial environments depth = some (outcomes, full) →
      ∀ i outcome after, RowEnds e depth serial environments i outcome after ↔
        outcomes[i]? = some outcome ∧ full.environments[i]? = some after) ∧
    (∀ i env, environments[i]? = some env → env.Over Action.IsPlain →
      ((∃ outcome after, RowEnds e depth serial environments i outcome after) ↔
        ((Machine.ofEnvironment env serial).evaluate e depth).isSome) ∧
      ∀ outcome after, RowEnds e depth serial environments i outcome after → AsAlone e depth serial i env outcome after) ∧
    ((evaluate config' onPool' e serial environments depth).isSome →
      (tryEvaluate config onPool e serial environments depth).isSome) ∧
    ((∃ values result, tryEvaluate config onPool e serial environments depth = some (.ok values, result)) ↔
      ∀ i < environments.length, ∃ value after, RowEnds e depth serial environments i (.ok value) after) ∧
    (∀ values after,
      (∃ result, tryEvaluate config onPool e serial environments depth = some (.ok values, result) ∧
        result.environments = after) ↔
      ∃ full, evaluate config' onPool' e serial environments depth = some (values.map .ok, full) ∧
        full.environments = after) ∧
    (config.isInline environments.length = true → ∀ k error,
      (∀ i < k, ∃ value after, RowEnds e depth serial environments i (.ok value) after) →
      (∃ after, RowEnds e depth serial environments k (.error error) after) →
      ∃ result, tryEvaluate config onPool e serial environments depth = some (.error error, result) ∧
        (∀ i ≤ k, ∃ outcome after, RowEnds e depth serial environments i outcome after ∧
          result.environments[i]? = some after) ∧
        ∀ i, k < i → result.environments[i]? = environments[i]?) ∧
    (∀ error result, tryEvaluate config onPool e serial environments depth = some (.error error, result) →
      (∃ i after, RowEnds e depth serial environments i (.error error) after) ∧
      ∀ i, result.environments[i]? = environments[i]? ∨
        ∃ outcome after, RowEnds e depth serial environments i outcome after ∧ result.environments[i]? = some after) ∧
    (∀ k error, (∃ after, RowEnds e depth serial environments k (.error error) after) →
      (∀ i < environments.length, i ≠ k → ∃ value after, RowEnds e depth serial environments i (.ok value) after) →
      ∃ result, tryEvaluate config onPool e serial environments depth = some (.error error, result)) := by
  have hall : (evaluate config' onPool' e serial environments depth).isSome ↔
      ∀ i < environments.length, ∃ outcome after, RowEnds e depth serial environments i outcome after :=
    evaluate_isSome_iff_rowEnds config' horder'
  refine ⟨hall, ?_, ?_, ?_, tryEvaluate_ok_iff config horder,
    tryEvaluate_ok_iff_evaluate config horder config' horder', ?_, ?_, ?_⟩
  · intro outcomes full h
    exact rowEnds_iff_of_evaluate config' horder' h
  · intro i env henv hover
    exact rowEnds_asAlone e depth serial henv hover
  · intro hsome
    obtain ⟨outcome, result, htry⟩ := exists_tryEvaluate config horder fun i hi =>
      hall.1 hsome i (lt_of_mem_taken config horder hi)
    rw [htry]
    rfl
  · intro hinline k error hbefore hk
    exact tryEvaluate_of_isInline config horder hinline hbefore hk
  · intro error result h
    exact tryEvaluate_error config horder h
  · intro k error hk hothers
    exact tryEvaluate_of_sole_failure config horder hk fun i hi => hothers i (lt_of_mem_taken config horder hi)

/-- A program that makes a function and assigns before it looks a name up that the second of three rows does not bind.
Without a pool the first two rows have their bindings and the third is untouched; a pool that takes up the last row first
reports the same error. -/
theorem tryEvaluate_agrees_three_rows :
    let p : Position := ⟨1, 1⟩
    let e : Expression := .list [.symbol "prog" p,
      .list [.symbol "def" p, .string "F" p, .string "x" p, .symbol "x" p] p,
      .list [.symbol "set" p, .string "b" p, .list [.symbol "call" p, .string "F" p, .number .one "1" p] p] p,
      .symbol "a" p] p
    let unbound := Vocabulary.standard.environment
    let bound := unbound.define "a" .nil
    let rows := [bound, unbound, bound]
    let error : EvalError := .unboundSymbol "a" p
    let left (env : Environment) (region : Nat) :=
      (env.define "F" (.host ⟨⟨region, 9⟩, .function "x" (.symbol "x" p)⟩)).define "b" (.number .one)
    (∃ result, tryEvaluate ⟨0, 5⟩ ⟨[0, 1, 2], 0, 0⟩ e 9 rows = some (.error error, result) ∧
      result.environments[0]? = some (left bound 1) ∧ result.environments[1]? = some (left unbound 2) ∧
      result.environments[2]? = some bound) ∧
    ∃ result, tryEvaluate ⟨4, 0⟩ ⟨[2, 1, 0], 0, 3⟩ e 9 rows = some (.error error, result) ∧
      ∀ i : Nat, result.environments[i]? = rows[i]? ∨ ∃ outcome after,
        RowEnds e evaluationDepth 9 rows i outcome after ∧ result.environments[i]? = some after := by
  intro p e unbound bound rows error left
  have hfirst : RowEnds e evaluationDepth 9 rows 0 (.ok .nil) (left bound 1) := by decide +kernel
  have hsecond : RowEnds e evaluationDepth 9 rows 1 (.error error) (left unbound 2) := by decide +kernel
  have hthird : RowEnds e evaluationDepth 9 rows 2 (.ok .nil) (left bound 3) := by decide +kernel
  have hinOrder : [0, 1, 2].Perm (List.range rows.length) := by decide
  have hreversed : [2, 1, 0].Perm (List.range rows.length) := by decide
  constructor
  · obtain ⟨_, _, _, _, _, _, hinline, _, _⟩ := tryEvaluate_agrees ⟨0, 5⟩ ⟨4, 0⟩ ⟨[0, 1, 2], 0, 0⟩ ⟨[2, 1, 0], 0, 3⟩ e
      evaluationDepth 9 rows hinOrder hreversed
    have hbefore : ∀ i < 1, ∃ value after, RowEnds e evaluationDepth 9 rows i (.ok value) after := by
      intro i hi
      obtain rfl : i = 0 := by omega
      exact ⟨_, _, hfirst⟩
    obtain ⟨result, htry, hended, huntouched⟩ := hinline (by decide) 1 error hbefore ⟨_, hsecond⟩
    obtain ⟨_, _, hzero, hleft⟩ := hended 0 (by decide)
    obtain ⟨_, _, hone, hleft'⟩ := hended 1 (by decide)
    obtain ⟨_, rfl⟩ := hzero.unique hfirst
    obtain ⟨_, rfl⟩ := hone.unique hsecond
    exact ⟨result, htry, hleft, hleft', huntouched 2 (by decide)⟩
  · obtain ⟨_, _, _, _, _, _, _, herror, hsole⟩ := tryEvaluate_agrees ⟨4, 0⟩ ⟨0, 5⟩ ⟨[2, 1, 0], 0, 3⟩ ⟨[0, 1, 2], 0, 0⟩ e
      evaluationDepth 9 rows hreversed hinOrder
    have hothers : ∀ i < rows.length, i ≠ 1 → ∃ value after, RowEnds e evaluationDepth 9 rows i (.ok value) after := by
      intro i hlt hne
      obtain rfl | rfl : i = 0 ∨ i = 2 := by
        have hthree : i < 3 := hlt
        omega
      · exact ⟨_, _, hfirst⟩
      · exact ⟨_, _, hthird⟩
    obtain ⟨result, htry⟩ := hsole 1 error ⟨_, hsecond⟩ hothers
    exact ⟨result, htry, (herror error result htry).2⟩

end SExprLang.Batch
