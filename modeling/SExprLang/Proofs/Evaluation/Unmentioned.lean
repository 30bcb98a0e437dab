import SExprLang.Proofs.Evaluation.Creations
import SExprLang.Proofs.Evaluation.Lexicon

/-!
# Names that a program does not mention

A program that has a name neither as a symbol nor as a string can neither read nor write what is bound to it. All other
names and strings make a lexicon (`Lexicon.without`), on which an environment agrees with itself after the name is bound
to whatever value; so the run is the same, but for that one binding (`evaluate_unmentioned`). A function may still have
the name as its parameter: the binding is then to the same argument on both sides, and it ends with the call.
-/

namespace SExprLang

open Eval

namespace Lexicon

/-- All names and strings but one. -/
def without (x : String) : Lexicon := ⟨(· ≠ x), (· ≠ x), id⟩

variable {x : String} {e : Expression} {env env' : Environment}

theorem includes_without (hsymbol : ¬ ProgramSymbol e env x) (hstring : ¬ ProgramString e env x) :
    (without x).Includes e env where
  symbol name hname := by
    rintro rfl
    exact hsymbol hname
  string s hs := by
    rintro rfl
    exact hstring hs

/-- A binding of the one name that is left out goes unnoticed. -/
theorem agree_define_without (hadmits : ∀ name value, env.get? name = some value → (without x).Admits value)
    (v : Value) : (without x).Agree env (env.define x v) := by
  intro name hname
  rw [Environment.get?_define, if_neg hname]
  exact ⟨rfl, hadmits name⟩

/-- A binding of the one name that is left out stays. -/
theorem eq_define_of_agree {initial : Environment} {v : Value} (hagree : (without x).Agree env env')
    (hfollows : (without x).Follows (initial.define x v) env') : env' = env.define x v := by
  refine Environment.ext_get? fun name => ?_
  rw [Environment.get?_define]
  split
  · rename_i hname
    rw [hfollows.unchanged name (fun hne => hne hname), Environment.get?_define, if_pos hname]
  · rename_i hname
    exact (hagree name hname).1.symm

end Lexicon

/-- **A binding that a program does not mention does not interfere.** If a name is neither a symbol nor a string of the
program, the program ends in the same way when the name is bound to any value: never, or with the same value or error,
and the environment that it leaves is the same but for that binding. Which identities the two runs give out does not
matter. -/
theorem evaluate_unmentioned (depth : Nat) {e : Expression} {machine machine' : Machine} {x : String} {v : Value}
    (hover : machine.env.Over Vocabulary.standard.Offers) (hsymbol : ¬ ProgramSymbol e machine.env x)
    (hstring : ¬ ProgramString e machine.env x) (henv : machine'.env = machine.env.define x v) :
    let a : Identity := ⟨machine.region, machine.serial⟩
    let b : Identity := ⟨machine'.region, machine'.serial⟩
    Ends (fun m n => Environment.Matched a b (m.env.define x v) n.env) Eq (Value.Matched a b)
      ((evaluate depth e).start machine) ((evaluate depth e).start machine') := by
  intro a b
  -- The first run is compared with one that gives out the identities of the second, and that one with the second.
  let between : Machine := { machine' with env := machine.env }
  have hmatched := evaluate_matched depth e machine between (machine.env.matched_self a b) (hover.isPlain (by decide))
  have hincludes := Lexicon.includes_without hsymbol hstring
  have hagree := Lexicon.agree_define_without (fun _ _ => hincludes.admits hover) v
  have hends := Lexicon.evaluate_ends depth hincludes.covers between hagree
  rw [show { between with env := machine.env.define x v } = machine' by rw [← henv]] at hends
  refine hmatched.trans_eq hends ?_
  rintro l m n hlm ⟨hmn, _, hfollows⟩
  rw [Lexicon.eq_define_of_agree hmn hfollows]
  exact hlm.define x (.same v)

/-- A name that is the parameter of a function and that nothing mentions, bound to an operation that is not of the
vocabulary; the second run gives out other identities than the first. -/
theorem evaluate_unmentioned_parameter :
    let p : Position := ⟨1, 1⟩
    let body : Expression := .list [.symbol "+" p, .number .one "1" p] p
    let e : Expression := .list [.symbol "prog" p,
      .list [.symbol "def" p, .string "G" p, .string "y" p, .symbol "y" p] p,
      .list [.symbol "call" p, .string "F" p, .number .zero "0" p] p] p
    let machine : Machine := Machine.mk (Vocabulary.standard.environment.define "F"
      (.host ⟨⟨0, 9⟩, .function "hidden" body⟩)) 0 10 []
    let v : Value := .operation ⟨⟨0, 11⟩, .reflective .attempt⟩
    let machine' : Machine := Machine.mk (machine.env.define "hidden" v) 1 20 []
    machine.env.Over Vocabulary.standard.Offers ∧ ¬ ProgramSymbol e machine.env "hidden" ∧
      ¬ ProgramString e machine.env "hidden" ∧
      ((evaluate 5 e).start machine).map (·.1) = some (.ok (.number .one)) ∧
      Ends (fun m n => Environment.Matched ⟨0, 10⟩ ⟨1, 20⟩ (m.env.define "hidden" v) n.env) Eq
        (Value.Matched ⟨0, 10⟩ ⟨1, 20⟩) ((evaluate 5 e).start machine) ((evaluate 5 e).start machine') := by
  intro p body e machine v machine'
  have hover : machine.env.Over Vocabulary.standard.Offers :=
    (Vocabulary.environment_over .standard).define "F" nofun
  have hbody : ∀ b, machine.env.BindsBody b → b = body := by
    rintro b ⟨name, identity, parameter, hget⟩
    rw [Environment.get?_define] at hget
    split at hget
    · cases hget
      rfl
    · rcases Vocabulary.kind_of_environment hget with hkind | hkind <;> cases hkind
  have hsymbol : ¬ ProgramSymbol e machine.env "hidden" := by
    rintro ⟨q, hn | ⟨b, hb, hn⟩⟩
    · simp [e] at hn
    · simp [hbody b hb, body] at hn
  have hstring : ¬ ProgramString e machine.env "hidden" := by
    rintro (⟨q, hn | ⟨b, hb, hn⟩⟩ | ⟨name, hget⟩)
    · simp [e] at hn
    · simp [hbody b hb, body] at hn
    · rw [Environment.get?_define] at hget
      split at hget
      · cases hget
      · rcases Vocabulary.kind_of_environment hget with hkind | hkind <;> cases hkind
  have henv : machine'.env = machine.env.define "hidden" v := rfl
  exact ⟨hover, hsymbol, hstring, by decide +kernel, evaluate_unmentioned 5 hover hsymbol hstring henv⟩

end SExprLang
