import SExprLang.Environment

/-!
# Values that a host writes down

A host gives a value outright, asks for a new host object, or refers to what a name is bound to.
-/

namespace SExprLang.Host

/-- How a host gives a value. -/
inductive Literal where
  | value (value : Value)
  /-- A host object that is new every time. -/
  | object (content : HostContent)
  /-- What a name is bound to, nil if it is not bound. -/
  | reference (name : String)

namespace Literal

/-- The value of a literal. References are to the environment; `serial` is the next free identity, and the one after the
literal is given back. -/
def resolve (env : Environment) (serial : Nat) : Literal → Value × Nat
  | value v => (v, serial)
  | object content => (.host ⟨⟨0, serial⟩, content⟩, serial + 1)
  | reference name => ((env.get? name).getD .nil, serial)

/-- The bindings of a list of literals, resolved from left to right in one environment. -/
def resolveBindings (env : Environment) : Nat → List (String × Literal) → List (String × Value) × Nat
  | serial, [] => ([], serial)
  | serial, (name, literal) :: rest =>
    let (v, serial) := literal.resolve env serial
    let (bindings, serial) := resolveBindings env serial rest
    ((name, v) :: bindings, serial)

end Literal

/-- An environment with bindings added that a host gives. References are to the environment itself. -/
def extend (env : Environment) (serial : Nat) (bindings : List (String × Literal)) : Environment × Nat :=
  let (bindings, serial) := Literal.resolveBindings env serial bindings
  (env.extend bindings, serial)

/-- The environments of a list of rows, each the given one with the bindings of the row added. -/
def extendRows (env : Environment) : Nat → List (List (String × Literal)) → List Environment × Nat
  | serial, [] => ([], serial)
  | serial, row :: rows =>
    let (first, serial) := extend env serial row
    let (rest, serial) := extendRows env serial rows
    (first :: rest, serial)

end SExprLang.Host
