import SExprLang.Environment.Lemmas
import SExprLang.Evaluation.Evaluate
import SExprLang.Evaluation.Lemmas
import SExprLang.Vocabulary

/-!
# Values in the text of a query

A query language writes a string between single quotes, and a quote in it twice. Literals like these tell where they end,
so a list of them tells the values (`literalText_unambiguous`). The test for membership puts the quotes around a value and
leaves the value as it is. Its text is that of the literals exactly if no value has a quote in it
(`membershipText_eq_iff`), and only then it can be relied on to tell the values: a value with a quote can end its own literal
and go on as the rest of the list (`membership_collides`).
-/

namespace SExprLang

namespace Action.Query

/-! ## Literals -/

/-- The quote of the query language. -/
def mark : Char := '\x27'

/-- The characters inside a literal: a quote is written twice. -/
def doubled (text : List Char) : List Char := text.flatMap fun c => if c = mark then [mark, mark] else [c]

/-- A string as a literal of the query language. -/
def literal (value : String) : String := String.ofList (mark :: doubled value.toList ++ [mark])

/-- The condition that a column has one of the given values, each written as a literal. -/
def literalText (column : String) (values : List String) : String :=
  "(" ++ column ++ " in (" ++ ", ".intercalate (values.map literal) ++ "))"

@[simp]
theorem doubled_nil : doubled [] = [] := rfl

theorem doubled_cons_mark (text : List Char) : doubled (mark :: text) = mark :: mark :: doubled text := by
  simp [doubled]

theorem doubled_cons {c : Char} (h : c ≠ mark) (text : List Char) : doubled (c :: text) = c :: doubled text := by
  simp [doubled, h]

/-! ## Where a literal ends -/

/-- **A literal tells its value and where it ends**, if what comes after it does not go on with a quote. -/
theorem doubled_unambiguous {xs ys r s : List Char} (hr : r.head? ≠ some mark) (hs : s.head? ≠ some mark)
    (h : doubled xs ++ mark :: r = doubled ys ++ mark :: s) : xs = ys ∧ r = s := by
  -- A quote inside is followed by another one, and the closing quote is not.
  have hclosing : ∀ {u v w : List Char}, u.head? ≠ some mark → mark :: u ≠ doubled (mark :: v) ++ w := by
    rintro u v w hu h
    rw [doubled_cons_mark] at h
    exact hu ((List.cons.inj h).2 ▸ rfl)
  induction xs generalizing ys with
  | nil =>
    cases ys with
    | nil => exact ⟨rfl, (List.cons.inj h).2⟩
    | cons d ys =>
      by_cases hd : d = mark
      · subst hd
        exact absurd h (hclosing hr)
      · rw [doubled_cons hd] at h
        exact absurd (List.cons.inj h).1.symm hd
  | cons c xs ih =>
    by_cases hc : c = mark
    · subst hc
      cases ys with
      | nil => exact absurd h.symm (hclosing hs)
      | cons d ys =>
        by_cases hd : d = mark
        · subst hd
          simp only [doubled_cons_mark, List.cons_append, List.cons.injEq, true_and] at h
          obtain ⟨rfl, hrest⟩ := ih h
          exact ⟨rfl, hrest⟩
        · rw [doubled_cons_mark, doubled_cons hd] at h
          exact absurd (List.cons.inj h).1.symm hd
    · rw [doubled_cons hc] at h
      cases ys with
      | nil => exact absurd (List.cons.inj h).1 hc
      | cons d ys =>
        by_cases hd : d = mark
        · subst hd
          rw [doubled_cons_mark] at h
          exact absurd (List.cons.inj h).1 hc
        · rw [doubled_cons hd] at h
          obtain ⟨rfl, htail⟩ := List.cons.inj h
          obtain ⟨rfl, hrest⟩ := ih htail
          exact ⟨rfl, hrest⟩

theorem literal_unambiguous {x y : String} {r s : List Char} (hr : r.head? ≠ some mark) (hs : s.head? ≠ some mark)
    (h : (literal x).toList ++ r = (literal y).toList ++ s) : x = y ∧ r = s := by
  simp only [literal, String.toList_ofList, List.cons_append, List.append_assoc, List.nil_append, List.cons.injEq,
    true_and] at h
  obtain ⟨hchars, hrest⟩ := doubled_unambiguous hr hs h
  exact ⟨String.toList_inj.1 hchars, hrest⟩

/-! ## Lists of literals -/

/-- What follows the first of some literals in the text of their list. -/
def afterLiteral : List String → List Char
  | [] => [')', ')']
  | x :: rest => ',' :: ' ' :: (literal x).toList ++ afterLiteral rest

theorem head?_afterLiteral (xs : List String) : (afterLiteral xs).head? ≠ some mark := by
  cases xs <;> simp [afterLiteral, mark]

theorem afterLiteral_unambiguous : ∀ {xs ys : List String}, afterLiteral xs = afterLiteral ys → xs = ys
  | [], [], _ => rfl
  | [], y :: ys, h => absurd (List.cons.inj h).1 (by decide)
  | x :: xs, [], h => absurd (List.cons.inj h).1 (by decide)
  | x :: xs, y :: ys, h => by
    simp only [afterLiteral, List.cons_append, List.cons.injEq, true_and] at h
    obtain ⟨rfl, hrest⟩ := literal_unambiguous (head?_afterLiteral xs) (head?_afterLiteral ys) h
    rw [afterLiteral_unambiguous hrest]

theorem intercalate_literal (x : String) (xs : List String) :
    (", ".intercalate ((x :: xs).map literal)).toList ++ [')', ')'] = (literal x).toList ++ afterLiteral xs := by
  induction xs generalizing x with
  | nil => simp [afterLiteral]
  | cons y xs ih =>
    rw [List.map_cons, List.map_cons, String.intercalate_cons_cons, ← List.map_cons, String.toList_append,
      String.toList_append, List.append_assoc, ih y]
    simp [afterLiteral]

/-- **A list of literals tells the values.** -/
theorem literalText_unambiguous {column : String} {xs ys : List String}
    (h : literalText column xs = literalText column ys) : xs = ys := by
  have hlist : (", ".intercalate (xs.map literal)).toList ++ [')', ')'] =
      (", ".intercalate (ys.map literal)).toList ++ [')', ')'] := by
    have hchars := congrArg String.toList h
    simpa [literalText] using hchars
  have hopening : ∀ (x : String) (rest : List Char), (literal x).toList ++ rest ≠ [')', ')'] := by
    intro x rest hclosed
    simp [literal, mark] at hclosed
  cases xs with
  | nil =>
    cases ys with
    | nil => rfl
    | cons y ys =>
      rw [intercalate_literal] at hlist
      exact absurd hlist.symm (hopening y _)
  | cons x xs =>
    rw [intercalate_literal] at hlist
    cases ys with
    | nil => exact absurd hlist (hopening x _)
    | cons y ys =>
      rw [intercalate_literal] at hlist
      obtain ⟨rfl, hrest⟩ := literal_unambiguous (head?_afterLiteral xs) (head?_afterLiteral ys) hlist
      rw [afterLiteral_unambiguous hrest]

/-! ## Values as they are -/

theorem length_doubled (text : List Char) : (doubled text).length = text.length + text.count mark := by
  induction text with
  | nil => rfl
  | cons c text ih =>
    by_cases hc : c = mark
    · subst hc
      rw [doubled_cons_mark]
      simp [ih]
      omega
    · rw [doubled_cons hc]
      simp [ih, hc]
      omega

theorem literal_eq {value : String} (h : mark ∉ value.toList) : literal value = "'" ++ value ++ "'" := by
  have hdoubled : ∀ text : List Char, mark ∉ text → doubled text = text := by
    intro text
    induction text with
    | nil => simp
    | cons c text ih =>
      intro hmem
      obtain ⟨hc, htext⟩ := not_or.1 (mt List.mem_cons.2 hmem)
      rw [doubled_cons (Ne.symm hc), ih htext]
  apply String.toList_inj.1
  simp [literal, hdoubled _ h, mark]

/-- A list of literals is as much longer as there are quotes in the values. -/
theorem length_intercalate_literal (values : List String) :
    (", ".intercalate (values.map literal)).length =
      (", ".intercalate (values.map fun value => "'" ++ value ++ "'")).length +
        (values.flatMap String.toList).count mark := by
  have hone : ∀ value : String, (literal value).length = ("'" ++ value ++ "'").length + value.toList.count mark := by
    intro value
    simp [literal, length_doubled, ← String.length_toList]
    omega
  induction values with
  | nil => rfl
  | cons x values ih =>
    cases values with
    | nil => simpa using hone x
    | cons y values =>
      simp only [List.map_cons, String.intercalate_cons_cons, String.length_append, List.flatMap_cons,
        List.count_append] at ih hone ⊢
      rw [ih, hone x]
      omega

/-- **The text is that of the literals exactly if no value has a quote in it.** -/
theorem membershipText_eq_iff (column : String) (values : List String) :
    membershipText column values = literalText column values ↔ ∀ value ∈ values, mark ∉ value.toList := by
  constructor
  · intro h value hmem
    have hlength := congrArg String.length h
    simp only [membershipText, literalText, String.length_append, length_intercalate_literal] at hlength
    have hcount : (values.flatMap String.toList).count mark = 0 := by omega
    exact fun hmark => List.count_eq_zero.1 hcount (List.mem_flatMap.2 ⟨value, hmem, hmark⟩)
  · intro h
    have hmap : (values.map fun value => "'" ++ value ++ "'") = values.map literal :=
      List.map_congr_left fun value hmem => (literal_eq (h value hmem)).symm
    rw [membershipText, hmap, literalText]

end Action.Query

open Action.Query

/-! ## The operation -/

/-- The outcome of `in` in the query vocabulary, when its arguments come to a column first and then to the values. -/
def QueryIn (column : String) (values : List String) (outcome : Except EvalError Value) : Prop :=
  ∃ (action : Action) (depth : Nat) (e f : Expression) (rest : List Expression) (machine middle last after : Machine),
    ("in", .action action) ∈ Vocabulary.query.entries ∧
    (evaluate depth e).start machine = some (.ok (.string column), middle) ∧
    (evaluate depth f).start middle = some (.ok (.strings values), last) ∧
    (action.perform (evaluate depth) (e :: f :: rest)).start machine = some (outcome, after)

theorem start_membership {depth : Nat} {e f : Expression} {machine middle last : Machine} {column : String}
    {values : List String} (he : (evaluate depth e).start machine = some (.ok (.string column), middle))
    (hf : (evaluate depth f).start middle = some (.ok (.strings values), last)) (rest : List Expression) :
    ((Action.query .membership).perform (evaluate depth) (e :: f :: rest)).start machine =
      some (.ok (.string (membershipText column values)), last) := by
  have hcolumn : (Eval.stringArg (evaluate depth) (some e)).start machine = some (.ok column, middle) := by
    simp [Eval.stringArg, Eval.present, Eval.start_bind, he, Eval.asString]
  have hvalues : (Eval.stringsArg (evaluate depth) (some f)).start middle = some (.ok values, last) := by
    simp [Eval.stringsArg, Eval.present, Eval.start_bind, hf, Eval.asStrings]
  show ((Eval.stringArg (evaluate depth) (some e)) >>= fun column =>
    Eval.stringsArg (evaluate depth) (some f) >>= fun values => _).start machine = _
  rw [Eval.start_bind, hcolumn]
  show (Eval.stringsArg (evaluate depth) (some f) >>= _).start middle = _
  rw [Eval.start_bind, hvalues]
  rfl

/-- The operation gives the text of the test, and nothing else. -/
theorem queryIn_iff {column : String} {values : List String} {outcome : Except EvalError Value} :
    QueryIn column values outcome ↔ outcome = .ok (.string (membershipText column values)) := by
  constructor
  · rintro ⟨action, depth, e, f, rest, machine, middle, last, after, hentry, he, hf, hperform⟩
    obtain rfl : action = .query .membership := by
      simpa [Vocabulary.entries, Vocabulary.selectEvents] using hentry
    rw [start_membership he hf] at hperform
    exact (Prod.mk.inj (Option.some.inj hperform)).1.symm
  · rintro rfl
    let here : Position := ⟨1, 1⟩
    let machine : Machine := ⟨Environment.empty.define "values" (.strings values), 0, 0, []⟩
    have he : (evaluate 1 (.string column here)).start machine = some (.ok (.string column), machine) := rfl
    have hf : (evaluate 1 (.symbol "values" here)).start machine = some (.ok (.strings values), machine) := by
      rw [evaluate, Eval.start_bind, Eval.start_lookup, Environment.get?_define_self]
      rfl
    exact ⟨_, 1, _, _, [], machine, machine, machine, machine, by simp [Vocabulary.entries], he, hf,
      start_membership he hf []⟩

/-- **Values without quotes can be told from the text of the test.** The text is made of the literals of the values exactly
if no value has a quote in it, and then other such values have another text. -/
theorem queryIn_tells_values (column : String) (xs : List String) :
    (∃ text, ∀ outcome, QueryIn column xs outcome ↔ outcome = .ok (.string text)) ∧
    (QueryIn column xs (.ok (.string (literalText column xs))) ↔ ∀ x ∈ xs, mark ∉ x.toList) ∧
    ∀ ys outcome, (∀ x ∈ xs, mark ∉ x.toList) → (∀ y ∈ ys, mark ∉ y.toList) →
      QueryIn column xs outcome → QueryIn column ys outcome → xs = ys := by
  refine ⟨⟨_, fun outcome => queryIn_iff⟩, ?_, ?_⟩
  · rw [queryIn_iff, ← membershipText_eq_iff column xs, Except.ok.injEq, Value.string.injEq]
    exact eq_comm
  · intro ys outcome hxs hys hx hy
    rw [queryIn_iff] at hx hy
    have htext : membershipText column xs = membershipText column ys := by
      simpa using hx.symm.trans hy
    have hliteral : literalText column xs = literalText column ys := by
      rw [← (membershipText_eq_iff column xs).2 hxs, htext, (membershipText_eq_iff column ys).2 hys]
    exact literalText_unambiguous hliteral

/-- A value with a separator in it is told from two values. -/
theorem queryIn_tells_values_separator :
    (∀ x ∈ ["020, 024"], mark ∉ x.toList) ∧ (∀ y ∈ ["020", "024"], mark ∉ y.toList) ∧
      QueryIn "log.area" ["020, 024"] (.ok (.string (literalText "log.area" ["020, 024"]))) ∧
      ¬QueryIn "log.area" ["020", "024"] (.ok (.string (literalText "log.area" ["020, 024"]))) := by
  have hone : ∀ x ∈ ["020, 024"], mark ∉ x.toList := by decide
  have htwo : ∀ y ∈ ["020", "024"], mark ∉ y.toList := by decide
  obtain ⟨_, hliteral, htells⟩ := queryIn_tells_values "log.area" ["020, 024"]
  refine ⟨hone, htwo, hliteral.2 hone, fun hsame => ?_⟩
  exact absurd (htells _ _ hone htwo (hliteral.2 hone) hsame) (by decide)

/-- A value with quotes in it passes for two values. -/
theorem membership_collides :
    let answer (values : List String) :=
      ((evaluate evaluationDepth
        (.list [.symbol "in" ⟨1, 2⟩, .symbol "column" ⟨1, 5⟩, .symbol "values" ⟨1, 12⟩] ⟨1, 1⟩)).start
        ⟨Vocabulary.query.environment.extend [("column", .string "log.area"), ("values", .strings values)], 0,
          Vocabulary.query.serial, []⟩).map (·.1)
    ["020', '024"] ≠ ["020", "024"] ∧
      answer ["020', '024"] = some (.ok (.string "(log.area in ('020', '024'))")) ∧
      answer ["020", "024"] = some (.ok (.string "(log.area in ('020', '024'))")) := by
  intro answer
  exact ⟨by decide, rfl, rfl⟩

end SExprLang
