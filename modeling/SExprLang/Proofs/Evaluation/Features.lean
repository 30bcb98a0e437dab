import SExprLang.Proofs.Evaluation.Effect

/-!
# Feature programs

A feature program is a vector of conjunctions, each of two tests for membership: that a first string is in one list and a
second string in another. In both vocabularies that make numbers of it the result is the vector of the indicators, one
where both tests hold and zero elsewhere, and a second string that no conjunction gets to need not be there
(`features_indicate`). The lists may be bound by the host or by a program before, which comes to the same.

The programs have their nodes at any places: `place` tells the position of the node that a path of item numbers leads to.
-/

namespace SExprLang

open Eval

/-! ## The programs -/

namespace FeatureProgram

section

variable (place : List Nat → Position)

/-- The test `(in x xs)` at a path. -/
def membership (path : List Nat) (x xs : String) : Expression :=
  .list [.symbol "in" (place (path ++ [0])), .symbol x (place (path ++ [1])), .symbol xs (place (path ++ [2]))]
    (place path)

/-- The conjunction `(and (in c C) (in a A))` as an item of the program. -/
def conjunction (c a : String) (item : Nat) (lists : String × String) : Expression :=
  .list [.symbol "and" (place [item, 0]), membership place [item, 1] c lists.1, membership place [item, 2] a lists.2]
    (place [item])

/-- The program `(vector (and (in c C₁) (in a A₁)) … (and (in c Cₙ) (in a Aₙ)))`. -/
def vector (c a : String) (lists : List (String × String)) : Expression :=
  .list (.symbol "vector" (place [0]) :: lists.mapIdx fun i pair => conjunction place c a (i + 1) pair) (place [])

/-- The assignment `(setter "name" "s₁" "s₂" …)` as an item of a program. -/
def assignment (setter : String) (item : Nat) (constant : String × List String) : Expression :=
  .list (.symbol setter (place [item, 0]) :: .string constant.1 (place [item, 1]) ::
    constant.2.mapIdx fun j s => .string s (place [item, j + 2])) (place [item])

/-- The program `(prog (setter "name₁" "s₁" …) (setter "name₂" …) …)`. -/
def initializer (setter : String) (constants : List (String × List String)) : Expression :=
  .list (.symbol "prog" (place [0]) :: constants.mapIdx fun i constant => assignment place setter (i + 1) constant)
    (place [])

end

/-- The bindings that the host would make in place of the initializer. -/
def bindings (constants : List (String × List String)) : List (String × Value) :=
  constants.map fun constant => (constant.1, .strings constant.2)

end FeatureProgram

/-! ## The words of the two vocabularies -/

/-- The environment binds the words to operations that do what the vocabulary has them do. -/
def Vocabulary.SpokenIn (vocabulary : Vocabulary) (env : Environment) (words : List String) : Prop :=
  ∀ word ∈ words, ∀ action, (word, .action action) ∈ vocabulary.entries →
    ∃ identity, env.get? word = some (.operation ⟨identity, action⟩)

/-- The environment of a vocabulary speaks all words. -/
theorem Vocabulary.spokenIn_environment (vocabulary : Vocabulary) (words : List String) :
    vocabulary.SpokenIn vocabulary.environment words := by
  intro word _ action hentry
  obtain ⟨serial, hget⟩ := exists_get?_environment hentry
  exact ⟨⟨0, serial⟩, hget⟩

/-- Bindings to other names leave the words what they are. -/
theorem Vocabulary.SpokenIn.extend {vocabulary : Vocabulary} {env : Environment} {words : List String}
    (h : vocabulary.SpokenIn env words) {bindings : List (String × Value)}
    (hnames : ∀ binding ∈ bindings, binding.1 ∉ words) : vocabulary.SpokenIn (env.extend bindings) words := by
  intro word hword action hentry
  obtain ⟨identity, hget⟩ := h word hword action hentry
  refine ⟨identity, ?_⟩
  rw [Environment.get?_extend_of_ne, hget]
  rintro binding hbinding rfl
  exact hnames binding hbinding hword

/-- The vocabularies in which a feature program gives numbers. -/
def Vocabulary.IsNumeric (vocabulary : Vocabulary) : Prop := vocabulary = .features ∨ vocabulary = .numericFeatures

namespace FeatureProgram

/-- The words of a feature program are spoken, the first string is bound, and all lists are. -/
structure Setting (vocabulary : Vocabulary) (env : Environment) (c s : String) (lists : List (String × String))
    (values : String → List String) : Prop where
  words : vocabulary.SpokenIn env ["vector", "and", "in"]
  string : env.get? c = some (.string s)
  first : ∀ pair ∈ lists, env.get? pair.1 = some (.strings (values pair.1))
  second : ∀ pair ∈ lists, env.get? pair.2 = some (.strings (values pair.2))

variable {vocabulary : Vocabulary} {env : Environment} {words : List String}

theorem spoken_vector (hnumeric : vocabulary.IsNumeric) (h : vocabulary.SpokenIn env words) (hword : "vector" ∈ words) :
    ∃ identity, env.get? "vector" = some (.operation ⟨identity, .feature .vector⟩) := by
  apply h "vector" hword
  rcases hnumeric with rfl | rfl <;> simp [Vocabulary.entries]

theorem spoken_in (hnumeric : vocabulary.IsNumeric) (h : vocabulary.SpokenIn env words) (hword : "in" ∈ words) :
    ∃ identity, env.get? "in" = some (.operation ⟨identity, .feature .member⟩) := by
  apply h "in" hword
  rcases hnumeric with rfl | rfl <;> simp [Vocabulary.entries]

/-- The two vocabularies differ in how they conjoin. -/
theorem spoken_and (hnumeric : vocabulary.IsNumeric) (h : vocabulary.SpokenIn env words) (hword : "and" ∈ words) :
    ∃ identity action, (action = .allTrue ∨ action = .allNonzero) ∧
      env.get? "and" = some (.operation ⟨identity, .feature action⟩) := by
  rcases hnumeric with rfl | rfl
  · obtain ⟨identity, hget⟩ := h "and" hword (.feature .allTrue) (by simp [Vocabulary.entries])
    exact ⟨identity, .allTrue, Or.inl rfl, hget⟩
  · obtain ⟨identity, hget⟩ := h "and" hword (.feature .allNonzero) (by simp [Vocabulary.entries])
    exact ⟨identity, .allNonzero, Or.inr rfl, hget⟩

theorem spoken_prog (hnumeric : vocabulary.IsNumeric) (h : vocabulary.SpokenIn env words) (hword : "prog" ∈ words) :
    ∃ identity, env.get? "prog" = some (.operation ⟨identity, .standard .sequence⟩) := by
  apply h "prog" hword
  rcases hnumeric with rfl | rfl <;> simp [Vocabulary.entries]

/-! ## Tests -/

/-- In the environment the expression is a test that has the outcome. -/
def Tests (env : Environment) (evaluate : Expression → Eval Value) (e : Expression) (outcome : Except EvalError Bool) :
    Prop :=
  Reads env (evaluate e) (some (outcome.map Value.bool))

/-- The first outcome that is not true, and true if there is none. -/
def allHold : List (Except EvalError Bool) → Except EvalError Bool
  | [] => .ok true
  | .ok true :: rest => allHold rest
  | other :: _ => other

/-- Of two outcomes the second counts only if the first is true. -/
theorem allHold_pair (b : Bool) (second : Except EvalError Bool) :
    allHold [.ok b, second] = if b then second else .ok false := by
  cases b with
  | false => rfl
  | true =>
    match second with
    | .error error => rfl
    | .ok false => rfl
    | .ok true => rfl

section

variable {place : List Nat → Position} {depth : Nat} {path : List Nat} {x xs : String} {identity : Identity}

theorem membership_tests {s : String} {values : List String}
    (hin : env.get? "in" = some (.operation ⟨identity, .feature .member⟩)) (hx : env.get? x = some (.string s))
    (hxs : env.get? xs = some (.strings values)) :
    Tests env (evaluate (depth + 2)) (membership place path x xs) (.ok (decide (s ∈ values))) := by
  refine Reads.performed hin ?_ _ _
  rw [← List.contains_eq_mem]
  refine (Reads.stringArg (.symbol hx _)).bind ?_
  exact (Reads.stringsArg (.symbol hxs _)).bind (.pure _)

theorem membership_tests_unbound (hin : env.get? "in" = some (.operation ⟨identity, .feature .member⟩))
    (hx : env.get? x = none) :
    Tests env (evaluate (depth + 2)) (membership place path x xs)
      (.error (.unboundSymbol x (place (path ++ [1])))) := by
  refine Reads.performed hin ?_ _ _
  exact (Reads.convertedArg_error asString (.unboundSymbol hx _)).bind_error

end

section

variable {evaluate : Expression → Eval Value} {tests : List Expression} {outcomes : List (Except EvalError Bool)}
  (h : List.Forall₂ (Tests env evaluate) tests outcomes)
include h

theorem allTrueArgs_reads : Reads env (Action.Feature.allTrueArgs evaluate tests) (some (allHold outcomes)) := by
  induction h with
  | nil => exact .pure true
  | @cons e outcome rest outcomes he _ ih =>
    match outcome with
    | .error error => exact Reads.bind_error he
    | .ok false => exact Reads.bind he (.pure false)
    | .ok true => exact Reads.bind he ih

theorem allNonzeroArgs_reads : Reads env (Action.Feature.allNonzeroArgs evaluate tests) (some (allHold outcomes)) := by
  have hzero : (Double.ofBool false).numEq .zero = true := by decide +kernel
  have hone : (Double.ofBool true).numEq .zero = false := by decide +kernel
  induction h with
  | nil => exact .pure true
  | @cons e outcome rest outcomes he _ ih =>
    match outcome with
    | .error error => exact (Reads.convertedArg_error asNumber he).bind_error
    | .ok false =>
      refine (Reads.numberArg_bool he).bind ?_
      rw [hzero]
      exact .pure false
    | .ok true =>
      refine (Reads.numberArg_bool he).bind ?_
      rw [hone]
      exact ih

/-- Both ways to conjoin tests come to the same: a test counts only if those before it hold. -/
theorem conjoined_reads {action : Action.Feature} (haction : action = .allTrue ∨ action = .allNonzero) :
    Reads env (action.perform evaluate tests) (some ((allHold outcomes).map Value.bool)) := by
  rcases haction with rfl | rfl
  · exact (allTrueArgs_reads h).map Value.bool
  · exact (allNonzeroArgs_reads h).map Value.bool

end

/-! ## Vectors -/

section

variable {place : List Nat → Position} {depth : Nat} {c a : String}
  (hvector : ∃ identity, env.get? "vector" = some (.operation ⟨identity, .feature .vector⟩))

/-- Trees that are numbered along a list stand in a relation to the images of the list if each of them does. -/
theorem forall₂_mapIdx {ι α : Type} {related : Expression → α → Prop} {tree : Nat → ι → Expression} {image : ι → α}
    {xs : List ι} (h : ∀ x ∈ xs, ∀ i, related (tree i x) (image x)) :
    List.Forall₂ related (xs.mapIdx tree) (xs.map image) := by
  induction xs generalizing tree with
  | nil => exact .nil
  | cons x xs ih =>
    rw [List.mapIdx_cons, List.map_cons]
    exact .cons (h x List.mem_cons_self 0) (ih fun y hy i => h y (List.mem_cons_of_mem x hy) (i + 1))

/-- Conjunctions that have a truth value have a number. -/
theorem numbers_of_tests {lists : List (String × String)} {holds : String × String → Bool}
    (hitems : ∀ pair ∈ lists, ∀ item, Tests env (evaluate depth) (conjunction place c a item pair) (.ok (holds pair))) :
    List.Forall₂ (fun e v => Reads env (numberArg (evaluate depth) (some e)) (some (.ok v)))
      (lists.mapIdx fun i pair => conjunction place c a (i + 1) pair) (lists.map fun pair => .ofBool (holds pair)) :=
  forall₂_mapIdx fun pair hpair i => Reads.numberArg_bool (hitems pair hpair (i + 1))

include hvector

/-- A program all of whose conjunctions have a truth value gives the vector of these. -/
theorem vector_reads {lists : List (String × String)} {holds : String × String → Bool}
    (hitems : ∀ pair ∈ lists, ∀ item,
      Tests env (evaluate (depth + 1)) (conjunction place c a item pair) (.ok (holds pair))) :
    Reads env (evaluate (depth + 2) (vector place c a lists))
      (some (.ok (.numbers (lists.map fun pair => .ofBool (holds pair))))) := by
  obtain ⟨_, hget⟩ := hvector
  refine Reads.performed hget ?_ _ _
  exact (Reads.mapM (numbers_of_tests hitems)).map Value.numbers

/-- The first conjunction that has an error ends the program. -/
theorem vector_reads_error {before rest : List (String × String)} {pair : String × String} {error : EvalError}
    (hbefore : ∀ other ∈ before, ∀ item,
      Tests env (evaluate (depth + 1)) (conjunction place c a item other) (.ok false))
    (hpair : Tests env (evaluate (depth + 1)) (conjunction place c a (before.length + 1) pair) (.error error)) :
    Reads env (evaluate (depth + 2) (vector place c a (before ++ pair :: rest))) (some (.error error)) := by
  obtain ⟨_, hget⟩ := hvector
  refine Reads.performed hget ?_ _ _
  rw [List.mapIdx_append, List.mapIdx_cons, Nat.zero_add]
  exact (Reads.mapM_error (numbers_of_tests hbefore) (Reads.convertedArg_error asNumber hpair) _).bind_error

end

/-! ## The outcomes -/

section

variable {place : List Nat → Position} {depth : Nat} {c a s : String} {lists : List (String × String)}
  {values : String → List String} (hnumeric : vocabulary.IsNumeric) (h : Setting vocabulary env c s lists values)
include hnumeric h

/-- A conjunction as an item of the program: what the second test comes to counts only where the first one holds. -/
theorem conjunction_tests {pair : String × String} (hpair : pair ∈ lists) {item : Nat} {second : Except EvalError Bool}
    (hsecond : Tests env (evaluate (depth + 2)) (membership place [item, 2] a pair.2) second) :
    Tests env (evaluate (depth + 3)) (conjunction place c a item pair)
      (if s ∈ values pair.1 then second else .ok false) := by
  obtain ⟨_, action, haction, hand⟩ := spoken_and hnumeric h.words (by simp)
  obtain ⟨_, hin⟩ := spoken_in hnumeric h.words (by simp)
  have hfirst : Tests env (evaluate (depth + 2)) (membership place [item, 1] c pair.1)
      (.ok (decide (s ∈ values pair.1))) := membership_tests hin h.string (h.first pair hpair)
  have hboth := conjoined_reads (.cons hfirst (.cons hsecond .nil)) haction
  rw [allHold_pair] at hboth
  simp only [decide_eq_true_eq] at hboth
  exact Reads.performed hand hboth _ _

/-- With both strings bound the result is the vector of the indicators. -/
theorem vector_reads_indicators {t : String} (ha : env.get? a = some (.string t)) :
    Reads env (evaluate (depth + 4) (vector place c a lists)) (some (.ok (.numbers (lists.map fun pair =>
      if s ∈ values pair.1 ∧ t ∈ values pair.2 then Double.one else Double.zero)))) := by
  obtain ⟨_, hin⟩ := spoken_in hnumeric h.words (by simp)
  have hitems : ∀ pair ∈ lists, ∀ item, Tests env (evaluate (depth + 3)) (conjunction place c a item pair)
      (.ok (decide (s ∈ values pair.1 ∧ t ∈ values pair.2))) := by
    intro pair hpair item
    have hsecond : Tests env (evaluate (depth + 2)) (membership place [item, 2] a pair.2)
        (.ok (decide (t ∈ values pair.2))) := membership_tests hin ha (h.second pair hpair)
    have hboth := conjunction_tests hnumeric h hpair hsecond
    by_cases hs : s ∈ values pair.1
    · simpa only [hs, if_true, true_and] using hboth
    · simpa only [hs, if_false, false_and, decide_false] using hboth
  have hreads := vector_reads (spoken_vector hnumeric h.words (by simp)) hitems
  simpa only [Double.ofBool, decide_eq_true_eq] using hreads

/-- Where the first string is not in its list the second one is not looked up. -/
theorem conjunction_tests_absent (ha : env.get? a = none) {pair : String × String} (hpair : pair ∈ lists)
    (hs : s ∉ values pair.1) (item : Nat) :
    Tests env (evaluate (depth + 3)) (conjunction place c a item pair) (.ok false) := by
  obtain ⟨_, hin⟩ := spoken_in hnumeric h.words (by simp)
  have hboth : Tests env (evaluate (depth + 3)) (conjunction place c a item pair) _ :=
    conjunction_tests hnumeric h hpair (membership_tests_unbound hin ha)
  rwa [if_neg hs] at hboth

theorem conjunction_tests_unbound (ha : env.get? a = none) {pair : String × String} (hpair : pair ∈ lists)
    (hs : s ∈ values pair.1) (item : Nat) :
    Tests env (evaluate (depth + 3)) (conjunction place c a item pair)
      (.error (.unboundSymbol a (place [item, 2, 1]))) := by
  obtain ⟨_, hin⟩ := spoken_in hnumeric h.words (by simp)
  have hboth : Tests env (evaluate (depth + 3)) (conjunction place c a item pair) _ :=
    conjunction_tests hnumeric h hpair (membership_tests_unbound hin ha)
  rwa [if_pos hs] at hboth

/-- If the first string is in none of its lists, the second one need not be bound. -/
theorem vector_reads_zeros (ha : env.get? a = none) (hnone : ∀ pair ∈ lists, s ∉ values pair.1) :
    Reads env (evaluate (depth + 4) (vector place c a lists))
      (some (.ok (.numbers (List.replicate lists.length Double.zero)))) := by
  rw [← List.map_const']
  exact vector_reads (spoken_vector hnumeric h.words (by simp)) fun pair hpair item =>
    conjunction_tests_absent hnumeric h ha hpair (hnone pair hpair) item

/-- If it is in one of them, the second one is missed where it is needed first. -/
theorem vector_reads_unbound (ha : env.get? a = none) {before rest : List (String × String)} {pair : String × String}
    (hlists : lists = before ++ pair :: rest) (hbefore : ∀ other ∈ before, s ∉ values other.1)
    (hpair : s ∈ values pair.1) :
    Reads env (evaluate (depth + 4) (vector place c a lists))
      (some (.error (.unboundSymbol a (place [before.length + 1, 2, 1])))) := by
  subst hlists
  refine vector_reads_error (spoken_vector hnumeric h.words (by simp)) (fun other hother item => ?_) ?_
  · exact conjunction_tests_absent hnumeric h ha (List.mem_append_left _ hother) (hbefore other hother) item
  · exact conjunction_tests_unbound hnumeric h ha (by simp) hpair (before.length + 1)

/-- With the second string bound or not, the program has an outcome. -/
theorem vector_settled (ha : ∀ v, env.get? a = some v → ∃ t, v = .string t) :
    ∃ outcome, Reads env (evaluate (depth + 4) (vector place c a lists)) (some outcome) := by
  cases hget : env.get? a with
  | some v =>
    obtain ⟨t, rfl⟩ := ha v hget
    exact ⟨_, vector_reads_indicators hnumeric h hget⟩
  | none =>
    cases hfind : lists.find? fun pair => decide (s ∈ values pair.1) with
    | none =>
      refine ⟨_, vector_reads_zeros hnumeric h hget fun pair hpair => ?_⟩
      simpa using List.find?_eq_none.1 hfind pair hpair
    | some pair =>
      obtain ⟨hpair, before, rest, hlists, hbefore⟩ := List.find?_eq_some_iff_append.1 hfind
      refine ⟨_, vector_reads_unbound hnumeric h hget hlists (fun other hother => ?_) (of_decide_eq_true hpair)⟩
      simpa using hbefore other hother

end

/-! ## Initializers -/

section

variable {place : List Nat → Position} {depth : Nat} {setter : String}

theorem assignment_leads (hsetter : ∃ identity, env.get? setter = some (.operation ⟨identity, .feature .assignStrings⟩))
    (item : Nat) (constant : String × List String) :
    Leads env (evaluate (depth + 2) (assignment place setter item constant)) .nil
      (env.define constant.1 (.strings constant.2)) := by
  obtain ⟨_, hget⟩ := hsetter
  have hliteral : ∀ (s : String) (p : Position),
      Reads env (stringArg (evaluate (depth + 1)) (some (.string s p))) (some (.ok s)) :=
    fun s p => Reads.stringArg (.string s p)
  have hvalues : Reads env (stringArgs (evaluate (depth + 1))
      (constant.2.mapIdx fun j s => Expression.string s (place [item, j + 2]))) (some (.ok (constant.2.map id))) :=
    Reads.mapM (forall₂_mapIdx fun s _ j => hliteral s (place [item, j + 2]))
  rw [List.map_id] at hvalues
  refine Leads.performed hget ?_ _ _
  exact (hliteral constant.1 _).leads.bind (hvalues.leads.bind ((Leads.define _ _).bind (Reads.pure _).leads))

/-- Assignments one after the other, wherever they stand. No assignment is to the setter, so that it stays what it is. -/
theorem assignments_lead (constants : List (String × List String)) (item : Nat → Nat)
    (hsetter : ∃ identity, env.get? setter = some (.operation ⟨identity, .feature .assignStrings⟩))
    (hnames : ∀ constant ∈ constants, constant.1 ≠ setter) :
    Leads env (Action.Standard.performSequence (evaluate (depth + 2))
      (constants.mapIdx fun i constant => assignment place setter (item i) constant)) .nil
      (env.extend (bindings constants)) := by
  induction constants generalizing env item with
  | nil => exact (Reads.pure Value.nil).leads
  | cons constant rest ih =>
    obtain ⟨hname, hrest⟩ := List.forall_mem_cons.1 hnames
    rw [List.mapIdx_cons, Action.Standard.performSequence, List.foldlM_cons]
    refine (assignment_leads hsetter (item 0) constant).bind (ih (fun i => item (i + 1)) ?_ hrest)
    rwa [Environment.get?_define, if_neg hname.symm]

/-- An initializer leaves the environment that the host would make. -/
theorem initializer_leads (hnumeric : vocabulary.IsNumeric) (hwords : vocabulary.SpokenIn env ["prog", setter])
    (hsetter : (setter, .action (.feature .assignStrings)) ∈ vocabulary.entries)
    {constants : List (String × List String)} (hnames : ∀ constant ∈ constants, constant.1 ≠ setter) :
    Leads env (evaluate (depth + 4) (initializer place setter constants)) .nil (env.extend (bindings constants)) := by
  obtain ⟨_, hprog⟩ := spoken_prog hnumeric hwords (by simp)
  have hget := hwords setter (by simp) _ hsetter
  exact Leads.performed hprog (assignments_lead constants (fun i => i + 1) hget hnames) _ _

end

end FeatureProgram

open FeatureProgram

/-- **Feature programs compute indicators.** In both numeric vocabularies, with the lists and the first string bound:
if the second string is bound, the result is the vector that has a one for each pair of lists in which both strings are,
and a zero for the others. If it is not bound, the result is all zeros as long as the first string is in none of its
lists, and otherwise the error of the second one's first needed occurrence. The environment stays as it is. It does not
matter whether the host binds the lists or an initializer does, where a later list of a name replaces an earlier one. -/
theorem features_indicate {vocabulary : Vocabulary} (hnumeric : vocabulary.IsNumeric) (place : List Nat → Position)
    {depth : Nat} (hdepth : 4 ≤ depth) (c a s : String) (lists : List (String × String))
    (values : String → List String) :
    (∀ env, Setting vocabulary env c s lists values →
      (∀ t, env.get? a = some (.string t) →
        Reads env (evaluate depth (vector place c a lists)) (some (.ok (.numbers (lists.map fun pair =>
          if s ∈ values pair.1 ∧ t ∈ values pair.2 then Double.one else Double.zero))))) ∧
      (env.get? a = none → (∀ pair ∈ lists, s ∉ values pair.1) →
        Reads env (evaluate depth (vector place c a lists))
          (some (.ok (.numbers (List.replicate lists.length Double.zero))))) ∧
      (env.get? a = none → ∀ before pair rest, lists = before ++ pair :: rest →
        (∀ other ∈ before, s ∉ values other.1) → s ∈ values pair.1 →
        Reads env (evaluate depth (vector place c a lists))
          (some (.error (.unboundSymbol a (place [before.length + 1, 2, 1])))))) ∧
    ∀ (machine : Machine) (place' : List Nat → Position) (setter : String) (constants : List (String × List String)),
      vocabulary.SpokenIn machine.env ["prog", setter] →
      (setter, .action (.feature .assignStrings)) ∈ vocabulary.entries →
      (∀ constant ∈ constants, constant.1 ≠ setter) →
      ∃ after, (evaluate depth (initializer place' setter constants)).start machine = some (.ok .nil, after) ∧
        after.env = machine.env.extend (bindings constants) ∧
        ∀ (row : List (String × Value)) (host : Machine),
          host.env = (machine.env.extend (bindings constants)).extend row →
          Setting vocabulary host.env c s lists values → (∀ v, host.env.get? a = some v → ∃ t, v = .string t) →
          ((evaluate depth (vector place c a lists)).start { after with env := after.env.extend row }).map (·.1) =
            ((evaluate depth (vector place c a lists)).start host).map (·.1) := by
  obtain ⟨depth, rfl⟩ := Nat.exists_eq_add_of_le' hdepth
  refine ⟨fun env h => ⟨fun t ha => ?_, fun ha hnone => ?_, fun ha before pair rest hlists hbefore hpair => ?_⟩,
    fun machine place' setter constants hwords hsetter hnames => ?_⟩
  · exact vector_reads_indicators hnumeric h ha
  · exact vector_reads_zeros hnumeric h ha hnone
  · exact vector_reads_unbound hnumeric h ha hlists hbefore hpair
  · obtain ⟨events, hinit⟩ := initializer_leads hnumeric hwords hsetter hnames machine rfl
    refine ⟨_, hinit, rfl, fun row host henv h ha => ?_⟩
    -- What the program comes to depends on the environment alone, and the two environments are the same.
    obtain ⟨outcome, hreads⟩ := vector_settled hnumeric h ha
    exact (hreads.outcome_eq henv.symm).trans (hreads.outcome_eq rfl).symm

/-- A phone number in London, whose area codes the initializer gives twice. The host binds the phone number after it, once
with the area code and once without. -/
theorem features_indicate_phone :
    let place : List Nat → Position := fun path => ⟨1, path.length⟩
    let program := vector place "country" "area" [("IL", "TLV"), ("UK", "LDN")]
    let constants := [("IL", ["+972"]), ("TLV", ["3"]), ("UK", ["+44"]), ("LDN", ["02"]), ("LDN", ["020", "024"])]
    let country : List (String × Value) := [("country", .string "+44")]
    let phone : List (String × Value) := [("country", .string "+44"), ("area", .string "020")]
    let machine : Machine := ⟨Vocabulary.numericFeatures.environment, 0, Vocabulary.numericFeatures.serial, []⟩
    ∃ after, (evaluate evaluationDepth (initializer place "set" constants)).start machine = some (.ok .nil, after) ∧
      ((evaluate evaluationDepth program).start { after with env := after.env.extend phone }).map (·.1) =
        some (.ok (.numbers [Double.zero, Double.one])) ∧
      ((evaluate evaluationDepth program).start { after with env := after.env.extend country }).map (·.1) =
        some (.error (.unboundSymbol "area" (place [2, 2, 1]))) := by
  intro place program constants country phone machine
  let values : String → List String := fun name =>
    if name = "IL" then ["+972"] else if name = "TLV" then ["3"] else if name = "UK" then ["+44"] else ["020", "024"]
  have hwords : ∀ words, Vocabulary.numericFeatures.SpokenIn machine.env words :=
    Vocabulary.numericFeatures.spokenIn_environment
  have hsetting : ∀ row, row = phone ∨ row = country →
      Setting .numericFeatures ((machine.env.extend (bindings constants)).extend row) "country" "+44"
        [("IL", "TLV"), ("UK", "LDN")] values := by
    rintro row (rfl | rfl)
    all_goals exact {
      words := ((hwords _).extend (by decide)).extend (by decide)
      string := by decide +kernel
      first := by decide +kernel
      second := by decide +kernel }
  obtain ⟨hprogram, hinit⟩ := features_indicate (Or.inr rfl) place (by decide : 4 ≤ evaluationDepth) "country" "area"
    "+44" [("IL", "TLV"), ("UK", "LDN")] values
  obtain ⟨after, hafter, _, hsame⟩ := hinit machine place "set" constants (hwords _) (by simp [Vocabulary.entries])
    (by decide)
  refine ⟨after, hafter, ?_, ?_⟩
  · have ha : ((machine.env.extend (bindings constants)).extend phone).get? "area" = some (.string "020") := by
      decide +kernel
    rw [hsame phone { machine with env := (machine.env.extend (bindings constants)).extend phone } rfl
      (hsetting phone (Or.inl rfl)) fun v hv => ⟨"020", Option.some.inj (hv.symm.trans ha)⟩]
    exact ((hprogram _ (hsetting phone (Or.inl rfl))).1 "020" ha).outcome_eq rfl
  · have ha : ((machine.env.extend (bindings constants)).extend country).get? "area" = none := by decide +kernel
    rw [hsame country { machine with env := (machine.env.extend (bindings constants)).extend country } rfl
      (hsetting country (Or.inr rfl)) fun v hv => absurd (ha.symm.trans hv) (Option.some_ne_none v).symm]
    exact ((hprogram _ (hsetting country (Or.inr rfl))).2.2 ha [("IL", "TLV")] ("UK", "LDN") [] rfl (by decide)
      (by decide)).outcome_eq rfl

end SExprLang
