import SExprLang.Demo.Factorial
import SExprLang.Proofs.Double.Arithmetic
import SExprLang.Proofs.Evaluation.Features

/-!
# Factorials by a loop and by recursion

The two programs of the demonstration compute the same product, `((1 * 2) * 3) * … * N` with a rounding at each step
(`Double.factorial`). The loop keeps in `x` the product so far (`loop_leads`). The function multiplies from the other end,
its argument times what it gives for one less, and a call that works in a copy of the environment finds the function there
under its name again (`functionBody_reads`); the products are the same since multiplication is commutative.
-/

namespace SExprLang

open Eval

/-! ## The product -/

namespace Double

/-- The product `((1 * 2) * 3) * … * n`, rounded at each step, and one if there is nothing to multiply. -/
def factorial (n : Nat) : Double := (List.range' 2 (n - 1)).foldl (fun product (i : Nat) => product * .ofInt i) .one

theorem factorial_succ (n : Nat) : factorial (n + 1) = factorial n * .ofInt (n + 1 : Nat) := by
  cases n with
  | zero =>
    show one = one * ofInt 1
    rw [ofInt_one, Double.one_mul (by decide)]
  | succ n =>
    unfold factorial
    rw [show n + 1 + 1 - 1 = n + 1 from rfl, List.range'_1_concat, List.foldl_concat, Nat.add_comm 2 n]
    rfl

theorem factorial_of_le_one {n : Nat} (h : n ≤ 1) : factorial n = one := by
  unfold factorial
  rw [Nat.sub_eq_zero_of_le h]
  rfl

theorem one_mul_factorial (n : Nat) : one * factorial n = factorial n := by
  apply Double.one_mul
  cases n with
  | zero => exact fun h => absurd h (by decide)
  | succ n =>
    rw [factorial_succ]
    exact eq_nan_of_isNaN_mul

end Double

namespace FactorialProgram

/-! ## The programs -/

/-- The body of the loop. -/
def loopBody : Expression :=
  .list [.symbol "set" ⟨5, 10⟩, .string "x" ⟨5, 14⟩,
    .list [.symbol "*" ⟨5, 19⟩, .symbol "x" ⟨5, 21⟩, .symbol "i" ⟨5, 23⟩] ⟨5, 18⟩] ⟨5, 9⟩

/-- The program with the loop. -/
def looped : Expression :=
  .list [.symbol "prog" ⟨2, 2⟩,
    .list [.symbol "set" ⟨3, 6⟩, .string "x" ⟨3, 10⟩, .number .one "1" ⟨3, 14⟩] ⟨3, 5⟩,
    .list [.symbol "loop" ⟨4, 6⟩, .string "i" ⟨4, 11⟩, .number .one "1" ⟨4, 15⟩, .symbol "N" ⟨4, 17⟩, loopBody] ⟨4, 5⟩,
    .symbol "x" ⟨6, 5⟩] ⟨2, 1⟩

/-- The body of the function. -/
def functionBody : Expression :=
  .list [.symbol "if_gt_one" ⟨3, 19⟩, .symbol "x" ⟨3, 29⟩,
    .list [.symbol "*" ⟨4, 10⟩, .symbol "x" ⟨4, 12⟩,
      .list [.symbol "call" ⟨4, 15⟩, .string "F" ⟨4, 20⟩,
        .list [.symbol "+" ⟨4, 25⟩, .symbol "x" ⟨4, 27⟩, .number (.ofInt (-1)) "-1" ⟨4, 29⟩] ⟨4, 24⟩] ⟨4, 14⟩] ⟨4, 9⟩,
    .number .one "1" ⟨5, 9⟩] ⟨3, 18⟩

/-- The program with the function. -/
def recursive : Expression :=
  .list [.symbol "prog" ⟨2, 2⟩,
    .list [.symbol "def" ⟨3, 6⟩, .string "F" ⟨3, 10⟩, .string "x" ⟨3, 14⟩, functionBody] ⟨3, 5⟩,
    .list [.symbol "call" ⟨6, 6⟩, .string "F" ⟨6, 11⟩, .symbol "N" ⟨6, 15⟩] ⟨6, 5⟩] ⟨2, 1⟩

theorem compile_looped : compile Demo.Factorial.looped = .ok looped := by decide +kernel

theorem compile_recursive : compile Demo.Factorial.recursive = .ok recursive := by decide +kernel

/-! ## The words -/

/-- The environment has the words of the vocabulary, whatever other names it binds. -/
def Speaks (env : Environment) : Prop :=
  Vocabulary.factorial.SpokenIn env (Vocabulary.factorial.entries.map Prod.fst)

variable {env : Environment}

theorem Speaks.get? (h : Speaks env) (word : String) (action : Action)
    (hentry : (word, .action action) ∈ Vocabulary.factorial.entries) :
    ∃ identity, env.get? word = some (.operation ⟨identity, action⟩) :=
  h word (List.mem_map_of_mem hentry) action hentry

theorem Speaks.define (h : Speaks env) {name : String} (hname : name ∉ Vocabulary.factorial.entries.map Prod.fst)
    (v : Value) : Speaks (env.define name v) := by
  have hextend : Speaks (env.extend [(name, v)]) := h.extend (by simpa using hname)
  exact hextend

theorem speaks_environmentFor (n : Int) : Speaks (Demo.Factorial.environmentFor n) :=
  Speaks.define (Vocabulary.factorial.spokenIn_environment _) (by decide) _

/-! ## Arithmetic -/

section

variable {depth : Nat} {a b : Expression} {x y : Double}

theorem numberArgs_reads (ha : Reads env (evaluate depth a) (some (.ok (.number x))))
    (hb : Reads env (evaluate depth b) (some (.ok (.number y)))) :
    Reads env (numberArgs (evaluate depth) [a, b]) (some (.ok [x, y])) :=
  Reads.mapM (.cons ha.numberArg (.cons hb.numberArg .nil))

variable (h : Speaks env) (ha : Reads env (evaluate (depth + 1) a) (some (.ok (.number x))))
  (hb : Reads env (evaluate (depth + 1) b) (some (.ok (.number y)))) (p q : Position)
include h ha hb

theorem product_reads : Reads env (evaluate (depth + 2) (.list [.symbol "*" p, a, b] q))
    (some (.ok (.number (.one * x * y)))) := by
  obtain ⟨_, hget⟩ := h.get? "*" (.standard .product) (by simp [Vocabulary.entries])
  refine Reads.performed hget ?_ p q
  exact (numberArgs_reads ha hb).map fun values => Value.number (values.foldl (· * ·) .one)

theorem sum_reads : Reads env (evaluate (depth + 2) (.list [.symbol "+" p, a, b] q))
    (some (.ok (.number (.zero + x + y)))) := by
  obtain ⟨_, hget⟩ := h.get? "+" (.standard .sum) (by simp [Vocabulary.entries])
  refine Reads.performed hget ?_ p q
  exact (numberArgs_reads ha hb).map fun values => Value.number (values.foldl (· + ·) .zero)

end

/-! ## The loop -/

section

variable {depth : Nat}

theorem set_leads (h : Speaks env) {name : String} {e : Expression} {v : Value}
    (he : Reads env (evaluate (depth + 1) e) (some (.ok v))) (p q r : Position) :
    Leads env (evaluate (depth + 2) (.list [.symbol "set" p, .string name q, e] r)) .nil (env.define name v) := by
  obtain ⟨_, hget⟩ := h.get? "set" (.standard .assign) (by simp [Vocabulary.entries])
  refine Leads.performed hget ?_ _ _
  refine (Reads.stringArg (.string name q)).leads.bind ?_
  refine ((Reads.pure e).bind he).leads.bind ?_
  exact (Leads.define name v).bind (Reads.pure _).leads

/-- One round of the loop multiplies the product by the number of the round. -/
theorem loopBody_leads (h : Speaks env) {k : Nat} (hx : env.get? "x" = some (.number (.factorial k)))
    (hi : env.get? "i" = some (.number (.ofInt (k + 1 : Nat)))) :
    Leads env (evaluate (depth + 3) loopBody) .nil (env.define "x" (.number (.factorial (k + 1)))) := by
  rw [Double.factorial_succ, ← Double.one_mul_factorial k]
  exact set_leads h (product_reads h (.symbol hx _) (.symbol hi _) _ _) _ _ _

/-- The rounds of the loop, from any one on. -/
theorem repeatBody_leads (h : Speaks env) (count : Nat) {k : Nat} (hx : env.get? "x" = some (.number (.factorial k))) :
    ∃ env', Leads env (Action.Standard.repeatBody (evaluate (depth + 3)) "i" loopBody count (k + 1 : Nat)) () env' ∧
      env'.get? "x" = some (.number (.factorial (k + count))) := by
  induction count generalizing env k with
  | zero => exact ⟨env, (Reads.pure ()).leads, hx⟩
  | succ count ih =>
    let first := env.define "i" (.number (.ofInt (k + 1 : Nat)))
    have hfirst : Speaks first := h.define (by decide) _
    have hround : Leads first (evaluate (depth + 3) loopBody) .nil
        (first.define "x" (.number (.factorial (k + 1)))) := by
      apply loopBody_leads hfirst
      · rwa [Environment.get?_define_of_ne _ _ (by decide)]
      · exact Environment.get?_define_self ..
    have hnext : Speaks (first.define "x" (.number (.factorial (k + 1)))) := hfirst.define (by decide) _
    obtain ⟨env', hrest, hx'⟩ := ih hnext (k := k + 1) (Environment.get?_define_self ..)
    refine ⟨env', (Leads.define "i" _).bind (hround.bind hrest), ?_⟩
    rw [hx', Nat.add_right_comm, Nat.add_assoc]

/-- The loop, started with one. -/
theorem loop_leads (h : Speaks env) {n : Int} (hn : n.natAbs ≤ 2 * Double.octave)
    (hN : env.get? "N" = some (.number (.ofInt n))) (hx : env.get? "x" = some (.number .one)) (p q r s t : Position) :
    ∃ env', Leads env (evaluate (depth + 4)
        (.list [.symbol "loop" p, .string "i" q, .number .one "1" r, .symbol "N" s, loopBody] t)) .nil env' ∧
      env'.get? "x" = some (.number (.factorial n.toNat)) := by
  obtain ⟨_, hget⟩ := h.get? "loop" (.standard .loop) (by simp [Vocabulary.entries])
  obtain ⟨env', hrounds, hx'⟩ := repeatBody_leads h n.toNat (k := 0) hx
  rw [Nat.zero_add] at hx'
  have hone : Double.one.toInt64 = 1 := by rw [← Double.ofInt_one, Double.toInt64_ofInt (by decide)]
  refine ⟨env', Leads.performed hget ?_ _ _, hx'⟩
  refine (Reads.stringArg (.string "i" q)).leads.bind ?_
  refine (Reads.numberArg (.number .one "1" r)).leads.bind ?_
  refine (Reads.numberArg (.symbol hN s)).leads.bind ?_
  refine (Reads.pure loopBody).leads.bind ?_
  rw [hone, Double.toInt64_ofInt hn, Int.add_sub_cancel]
  exact hrounds.bind (Reads.pure _).leads

/-- The program with the loop ends with the product. -/
theorem looped_leads (h : Speaks env) {n : Int} (hn : n.natAbs ≤ 2 * Double.octave)
    (hN : env.get? "N" = some (.number (.ofInt n))) :
    ∃ env', Leads env (evaluate (depth + 5) looped) (.number (.factorial n.toNat)) env' := by
  obtain ⟨_, hget⟩ := h.get? "prog" (.standard .sequence) (by simp [Vocabulary.entries])
  let first := env.define "x" (.number .one)
  have hfirst : Speaks first := h.define (by decide) _
  obtain ⟨env', hloop, hx⟩ := loop_leads hfirst hn (by rwa [Environment.get?_define_of_ne _ _ (by decide)])
    (Environment.get?_define_self ..) ⟨4, 6⟩ ⟨4, 11⟩ ⟨4, 15⟩ ⟨4, 17⟩ ⟨4, 5⟩
  refine ⟨env', Leads.performed hget ?_ _ _⟩
  refine (set_leads h (.number .one "1" _) _ _ _).bind ?_
  exact hloop.bind ((Reads.symbol hx _).leads.bind (Reads.pure _).leads)

end

/-! ## The function -/

section

variable {depth : Nat} {outcome : Option (Except EvalError Value)}

theorem if_reads (h : Speaks env) {e yes no : Expression} {x : Double}
    (he : Reads env (evaluate (depth + 1) e) (some (.ok (.number x))))
    (hbranch : Reads env (evaluate (depth + 1) (if Double.one.numLt x then yes else no)) outcome) (p q : Position) :
    Reads env (evaluate (depth + 2) (.list [.symbol "if_gt_one" p, e, yes, no] q)) outcome := by
  obtain ⟨_, hget⟩ := h.get? "if_gt_one" (.standard .ifAboveOne) (by simp [Vocabulary.entries])
  refine Reads.performed hget (he.numberArg.bind ?_) p q
  split at hbranch
  · rename_i hlt
    rw [if_pos hlt]
    exact (Reads.pure yes).bind hbranch
  · rename_i hlt
    rw [if_neg hlt]
    exact (Reads.pure no).bind hbranch

/-- A call runs the body where the name is looked up, with the parameter bound. -/
theorem call_reads (h : Speaks env) {name parameter : String} {identity : Identity} {e body : Expression} {v : Value}
    (hfunction : env.get? name = some (.host ⟨identity, .function parameter body⟩))
    (he : Reads env (evaluate (depth + 1) e) (some (.ok v)))
    (hbody : Reads (env.define parameter v) (evaluate (depth + 1) body) outcome) (p q r : Position) :
    Reads env (evaluate (depth + 2) (.list [.symbol "call" p, .string name q, e] r)) outcome := by
  obtain ⟨_, hget⟩ := h.get? "call" (.standard .callFunction) (by simp [Vocabulary.entries])
  refine Reads.performed hget ?_ p r
  refine (Reads.stringArg (.string name q)).bind ?_
  refine ((Reads.pure e).bind he).bind ?_
  refine (Reads.lookup name).bind ?_
  rw [hfunction]
  exact hbody.inScope

/-- The argument that the function calls itself with. -/
theorem pred_reads (h : Speaks env) {k : Nat} (hk : k < 2 * Double.octave)
    (hx : env.get? "x" = some (.number (.ofInt (k + 1 : Nat)))) (p q r s : Position) :
    Reads env (evaluate (depth + 2) (.list [.symbol "+" p, .symbol "x" q, .number (.ofInt (-1)) "-1" r] s))
      (some (.ok (.number (.ofInt k)))) := by
  have hn : ((k + 1 : Nat) : Int).natAbs ≤ 2 * Double.octave := hk
  have hvalue : .zero + .ofInt (k + 1 : Nat) + .ofInt (-1) = Double.ofInt k := by
    rw [← Double.ofInt_zero, Double.ofInt_add (by decide) hn, Int.zero_add,
      Double.ofInt_add hn (by decide), Int.natCast_succ, Int.add_neg_cancel_right]
  rw [← hvalue]
  exact sum_reads h (.symbol hx q) (.number _ _ r) p s

/-- The body of the function, for numbers up to one. -/
theorem functionBody_reads_of_le_one (h : Speaks env) {n : Int} (hn : n.natAbs ≤ 2 * Double.octave) (hle : n ≤ 1)
    (hx : env.get? "x" = some (.number (.ofInt n))) :
    Reads env (evaluate (depth + 2) functionBody) (some (.ok (.number .one))) := by
  refine if_reads h (.symbol hx _) ?_ _ _
  rw [← Double.ofInt_one, Double.ofInt_numLt (by decide) hn, decide_eq_false (by omega)]
  exact .number _ _ _

/-- Where the function is bound, its body gives the product up to its argument. -/
theorem functionBody_reads (h : Speaks env) {identity : Identity}
    (hF : env.get? "F" = some (.host ⟨identity, .function "x" functionBody⟩)) {k : Nat} (hk : k < 2 * Double.octave)
    (hx : env.get? "x" = some (.number (.ofInt (k + 1 : Nat)))) :
    Reads env (evaluate (3 * k + depth + 2) functionBody) (some (.ok (.number (.factorial (k + 1))))) := by
  induction k generalizing env with
  | zero => exact functionBody_reads_of_le_one h (by decide) (by decide) hx
  | succ k ih =>
    have hrest : Reads (env.define "x" (.number (.ofInt (k + 1 : Nat)))) (evaluate (3 * k + depth + 2) functionBody)
        (some (.ok (.number (.factorial (k + 1))))) := by
      apply ih (h.define (by decide) _) _ (Nat.lt_of_succ_lt hk)
      · exact Environment.get?_define_self ..
      · rwa [Environment.get?_define_of_ne _ _ (by decide)]
    have hn : ((k + 1 + 1 : Nat) : Int).natAbs ≤ 2 * Double.octave := hk
    have hproduct : Double.one * .ofInt (k + 1 + 1 : Nat) * .factorial (k + 1) = .factorial (k + 1 + 1) := by
      rw [Double.one_mul (by rw [Double.isNaN_ofInt hn]; exact nofun), Double.mul_comm, ← Double.factorial_succ]
    have habove : Double.one.numLt (.ofInt (k + 1 + 1 : Nat)) = true := by
      rw [← Double.ofInt_one, Double.ofInt_numLt (by decide) hn, decide_eq_true (by omega)]
    rw [show 3 * (k + 1) + depth + 2 = 3 * k + depth + 5 by omega, ← hproduct]
    refine if_reads h (.symbol hx _) ?_ _ _
    rw [if_pos habove]
    refine product_reads h (.symbol hx _) ?_ _ _
    exact call_reads h hF (pred_reads h hk hx _ _ _ _) hrest _ _ _

/-- Whatever the argument, the function gives the product up to it. -/
theorem call_function_reads (h : Speaks env) {identity : Identity}
    (hF : env.get? "F" = some (.host ⟨identity, .function "x" functionBody⟩)) {n : Int}
    (hn : n.natAbs ≤ 2 * Double.octave) (hN : env.get? "N" = some (.number (.ofInt n))) (p q r s : Position) :
    Reads env (evaluate (3 * n.toNat + depth + 3) (.list [.symbol "call" p, .string "F" q, .symbol "N" r] s))
      (some (.ok (.number (.factorial n.toNat)))) := by
  refine call_reads h hF (.symbol hN r) ?_ p q s
  have hinner : Speaks (env.define "x" (.number (.ofInt n))) := h.define (by decide) _
  have hx : (env.define "x" (.number (.ofInt n))).get? "x" = some (.number (.ofInt n)) := by
    exact Environment.get?_define_self ..
  by_cases hle : n ≤ 1
  · rw [Double.factorial_of_le_one (by omega)]
    exact functionBody_reads_of_le_one hinner hn hle hx
  · obtain ⟨k, rfl⟩ : ∃ k : Nat, n = (k + 1 : Nat) := ⟨n.toNat - 1, by omega⟩
    rw [Int.toNat_natCast, show 3 * (k + 1) + depth + 2 = 3 * k + (depth + 3) + 2 by omega]
    exact functionBody_reads hinner (by rwa [Environment.get?_define_of_ne _ _ (by decide)]) hn hx

/-- A definition binds a new function. It takes an identity for it, so that more than the environment changes. -/
theorem def_start {machine : Machine} (h : Speaks machine.env) (name parameter : String) (body : Expression)
    (p q r s : Position) :
    ∃ identity after, (evaluate (depth + 2)
        (.list [.symbol "def" p, .string name q, .string parameter r, body] s)).start machine = some (.ok .nil, after) ∧
      after.env = machine.env.define name (.host ⟨identity, .function parameter body⟩) := by
  obtain ⟨_, hget⟩ := h.get? "def" (.standard .defineFunction) (by simp [Vocabulary.entries])
  rw [start_performed hget]
  exact ⟨⟨machine.region, machine.serial⟩, _, rfl, rfl⟩

/-- What follows a definition runs where the definition has ended. -/
theorem sequence_outcome {evaluate : Expression → Eval Value} {first second : Expression} {machine after : Machine}
    {v w : Value} (hfirst : (evaluate first).start machine = some (.ok v, after))
    (hsecond : Reads after.env (evaluate second) (some (.ok w))) :
    ((Action.Standard.performSequence evaluate [first, second]).start machine).map (·.1) = some (.ok w) := by
  rw [Action.Standard.performSequence, List.foldlM_cons, start_bind, hfirst]
  exact (hsecond.bind (.pure w)).outcome_eq rfl

/-- The program with the function ends with the product. -/
theorem recursive_outcome {machine : Machine} (h : Speaks machine.env) {n : Int} (hn : n.natAbs ≤ 2 * Double.octave)
    (hN : machine.env.get? "N" = some (.number (.ofInt n))) :
    ((evaluate (3 * n.toNat + depth + 4) recursive).start machine).map (·.1) =
      some (.ok (.number (.factorial n.toNat))) := by
  obtain ⟨_, hget⟩ := h.get? "prog" (.standard .sequence) (by simp [Vocabulary.entries])
  rw [recursive, start_performed hget]
  generalize hinner : ({ machine with events := _ } : Machine) = inner
  have henv : inner.env = machine.env := by rw [← hinner]
  rw [← henv] at h hN
  obtain ⟨identity, after, hdef, hafter⟩ := def_start h "F" "x" functionBody _ _ _ _
  have hF : after.env.get? "F" = some (.host ⟨identity, .function "x" functionBody⟩) := by
    rw [hafter, Environment.get?_define_self]
  have hN' : after.env.get? "N" = some (.number (.ofInt n)) := by
    rwa [hafter, Environment.get?_define_of_ne _ _ (by decide)]
  have h' : Speaks after.env := by
    rw [hafter]
    exact h.define (by decide) _
  exact sequence_outcome hdef (call_function_reads h' hF hn hN' _ _ _ _)

end

end FactorialProgram

open FactorialProgram

/-- **The loop and the function compute the same factorial.** For every 32-bit integer that `N` is bound to, both programs
compile, and both end with the product `((1 * 2) * 3) * … * N`, which is one up to `N = 1`: the loop at any depth from five
on, the function at a depth of three for each number multiplied and four more. -/
theorem factorials_agree (n : Int32) : ∃ loop function,
    compile Demo.Factorial.looped = .ok loop ∧ compile Demo.Factorial.recursive = .ok function ∧
    (∀ machine : Machine, machine.env = Demo.Factorial.environmentFor n.toInt →
      (∀ depth, 5 ≤ depth → ((evaluate depth loop).start machine).map (·.1) =
        some (.ok (.number (.factorial n.toInt.toNat)))) ∧
      (∀ depth, 3 * n.toInt.toNat + 4 ≤ depth → ((evaluate depth function).start machine).map (·.1) =
        some (.ok (.number (.factorial n.toInt.toNat))))) ∧
    (n.toInt ≤ 1 → Double.factorial n.toInt.toNat = .one) := by
  refine ⟨looped, recursive, compile_looped, compile_recursive, fun machine henv => ?_,
    fun hle => Double.factorial_of_le_one (by omega)⟩
  have h : Speaks machine.env := henv ▸ speaks_environmentFor n.toInt
  have hN : machine.env.get? "N" = some (.number (.ofInt n.toInt)) := by
    rw [henv, Demo.Factorial.environmentFor, Environment.get?_define_self]
  have hn : n.toInt.natAbs ≤ 2 * Double.octave := by
    have := n.le_toInt
    have := n.toInt_lt
    unfold Double.octave
    omega
  refine ⟨fun depth hdepth => ?_, fun depth hdepth => ?_⟩
  · obtain ⟨extra, rfl⟩ := Nat.exists_eq_add_of_le' hdepth
    obtain ⟨env', hleads⟩ := looped_leads h hn hN
    obtain ⟨events, hrun⟩ := hleads machine rfl
    rw [hrun]
    rfl
  · obtain ⟨extra, rfl⟩ := Nat.exists_eq_add_of_le hdepth
    rw [Nat.add_right_comm]
    exact recursive_outcome h hn hN

/-- Both programs of the demonstration give 720 for six, at the depth that programs are granted. -/
theorem factorials_agree_six : ∃ loop function,
    compile Demo.Factorial.looped = .ok loop ∧ compile Demo.Factorial.recursive = .ok function ∧
    let machine := Machine.ofEnvironment (Demo.Factorial.environmentFor 6) Vocabulary.factorial.serial
    ((evaluate evaluationDepth loop).start machine).map (·.1) = some (.ok (.number (.ofInt 720))) ∧
      ((evaluate evaluationDepth function).start machine).map (·.1) = some (.ok (.number (.ofInt 720))) := by
  obtain ⟨loop, function, hloop, hfunction, houtcomes, -⟩ := factorials_agree 6
  have hvalue : Double.factorial (Int32.toInt 6).toNat = .ofInt 720 := by decide +kernel
  obtain ⟨hlooped, hrecursive⟩ := houtcomes
    (Machine.ofEnvironment (Demo.Factorial.environmentFor 6) Vocabulary.factorial.serial) rfl
  rw [hvalue] at hlooped hrecursive
  exact ⟨loop, function, hloop, hfunction, hlooped _ (by decide), hrecursive _ (by decide)⟩

end SExprLang
