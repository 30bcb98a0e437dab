import SExprLang.Value

/-!
# Environments

An environment binds names to values. It keeps its bindings in the order of their names, each name once, so that two
environments with the same bindings are equal, however they came about (`Environment.ext_get?`).
-/

namespace SExprLang

namespace Environment

/-- The names of a list of bindings increase. -/
def Ordered (bindings : List (String × Value)) : Prop := bindings.Pairwise fun a b => a.1 < b.1

end Environment

/-- Bindings of names to values, in the order of the names. -/
structure Environment where
  bindings : List (String × Value)
  ordered : Environment.Ordered bindings
deriving DecidableEq

namespace Environment

/-- No bindings. -/
def empty : Environment := ⟨[], List.Pairwise.nil⟩

instance : Inhabited Environment := ⟨empty⟩

/-! ## Queries -/

/-- What a name is bound to. -/
def get? (env : Environment) (name : String) : Option Value := env.bindings.lookup name

/-- Whether a name is bound. -/
def contains (env : Environment) (name : String) : Bool := (env.get? name).isSome

/-- The number of bindings. -/
def size (env : Environment) : Nat := env.bindings.length

/-- Whether there are no bindings. -/
def isEmpty (env : Environment) : Bool := env.bindings.isEmpty

/-- The bound names in increasing order. -/
def names (env : Environment) : List String := env.bindings.map (·.1)

/-! ## Changes -/

/-- Puts a binding at the place of its name, instead of the one that has the name already. -/
def insert (name : String) (value : Value) : List (String × Value) → List (String × Value)
  | [] => [(name, value)]
  | binding :: rest =>
    if name < binding.1 then (name, value) :: binding :: rest
    else if name = binding.1 then (name, value) :: rest
    else binding :: insert name value rest

theorem mem_insert {name : String} {value : Value} {b : String × Value} {bindings : List (String × Value)}
    (h : b ∈ insert name value bindings) : b.1 = name ∨ b ∈ bindings := by
  induction bindings with
  | nil => simp_all [insert]
  | cons binding rest ih =>
    simp only [insert] at h
    split at h
    · simp_all
      grind
    · split at h <;> grind

theorem Ordered.insert {bindings : List (String × Value)} (h : Ordered bindings) (name : String) (value : Value) :
    Ordered (insert name value bindings) := by
  induction bindings with
  | nil => exact List.pairwise_singleton _ _
  | cons binding rest ih =>
    obtain ⟨first, others⟩ := List.pairwise_cons.1 h
    simp only [Environment.insert]
    split
    · rename_i before
      exact List.pairwise_cons.2 ⟨fun b hb => by
        rcases List.mem_cons.1 hb with rfl | hb
        · exact before
        · exact String.lt_trans before (first b hb), h⟩
    · split
      · rename_i same
        exact List.pairwise_cons.2 ⟨fun b hb => same ▸ first b hb, others⟩
      · rename_i notBefore notSame
        refine List.pairwise_cons.2 ⟨fun b hb => ?_, ih others⟩
        rcases mem_insert hb with hname | hb
        · rcases Std.lt_trichotomy name binding.1 with hlt | heq | hgt
          · exact absurd hlt notBefore
          · exact absurd heq notSame
          · exact hname ▸ hgt
        · exact first b hb

/-- Binds a name to a value, whatever it was bound to before. -/
def define (env : Environment) (name : String) (value : Value) : Environment :=
  ⟨insert name value env.bindings, env.ordered.insert name value⟩

/-- Unbinds a name. -/
def remove (env : Environment) (name : String) : Environment :=
  ⟨env.bindings.filter (·.1 != name), env.ordered.filter _⟩

/-- Adds bindings one after the other, so that the last one of a name stays. -/
def extend (env : Environment) (bindings : List (String × Value)) : Environment :=
  bindings.foldl (fun env binding => env.define binding.1 binding.2) env

/-- The environment of a list of bindings, the last one of each name. -/
def ofList (bindings : List (String × Value)) : Environment := empty.extend bindings

/-! ## Differences and text -/

/-- How an environment differs from another one. -/
structure Changes where
  /-- The bindings that the other one does not have. -/
  bound : List (String × Value)
  /-- The names that only the other one binds. -/
  removed : List String

/-- How an environment differs from a base. A binding to a value that is not equal to itself is always a difference. -/
def changesFrom (env base : Environment) : Changes where
  bound := env.bindings.filter fun (name, value) =>
    match base.get? name with
    | some old => !value.eqv old
    | none => true
  removed := base.names.filter (!env.contains ·)

/-- The text of the environment with the kinds of its values. -/
def inspect (env : Environment) : String :=
  "\x7b" ++ ", ".intercalate (env.bindings.map fun (name, value) => Text.quote name ++ ": " ++ value.inspect) ++ "\x7d"

end Environment

end SExprLang
