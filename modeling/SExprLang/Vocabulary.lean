import SExprLang.Environment

/-!
# Vocabularies

A vocabulary is the set of names that a host offers to programs: operations, and a few constants.
-/

namespace SExprLang

namespace Vocabulary

/-- What a vocabulary binds a name to. -/
inductive Entry where
  | constant (value : Bool)
  | action (action : Action)

end Vocabulary

/-- The vocabularies that come with the language. -/
inductive Vocabulary where
  /-- No names at all. -/
  | none
  /-- Arithmetic, assignment, loops, conditions and functions. -/
  | standard
  /-- The part of the standard vocabulary that factorials need. -/
  | factorial
  /-- Feature vectors from tests that give truth values. -/
  | features
  /-- Feature vectors from tests that may give any number. -/
  | numericFeatures
  /-- Database queries under the names of the feature vocabulary. -/
  | query
  /-- Operations on every aspect of the language. -/
  | core
deriving DecidableEq

namespace Vocabulary

/-- The table and its label in the queries of the query vocabulary. -/
def selectEvents : Action := .query (.select "hive.\"default\".events" "log")

/-- The names of a vocabulary and what they are bound to. -/
def entries : Vocabulary → List (String × Entry)
  | none => []
  | standard => [
      ("prog", .action (.standard .sequence)),
      ("+", .action (.standard .sum)),
      ("*", .action (.standard .nonemptyProduct)),
      ("set", .action (.standard .assign)),
      ("loop", .action (.standard .loop)),
      ("if", .action (.standard .ifNonzero)),
      ("if_gt_one", .action (.standard .ifAboveOne)),
      ("def", .action (.standard .defineFunction)),
      ("call", .action (.standard .callFunction))]
  | factorial => [
      ("prog", .action (.standard .sequence)),
      ("*", .action (.standard .product)),
      ("+", .action (.standard .sum)),
      ("set", .action (.standard .assign)),
      ("loop", .action (.standard .loop)),
      ("if_gt_one", .action (.standard .ifAboveOne)),
      ("def", .action (.standard .defineFunction)),
      ("call", .action (.standard .callFunction))]
  | features => [
      ("vector", .action (.feature .vector)),
      ("and", .action (.feature .allTrue)),
      ("in", .action (.feature .member)),
      ("prog", .action (.standard .sequence)),
      ("set_str_list", .action (.feature .assignStrings))]
  | numericFeatures => [
      ("prog", .action (.standard .sequence)),
      ("set", .action (.feature .assignStrings)),
      ("vector", .action (.feature .vector)),
      ("and", .action (.feature .allNonzero)),
      ("in", .action (.feature .member))]
  | query => [
      ("vector", .action selectEvents),
      ("and", .action (.query .conjunction)),
      ("in", .action (.query .membership)),
      ("prog", .action (.standard .sequence)),
      ("set_str_list", .action (.feature .assignStrings))]
  | core => [
      ("true", .constant true),
      ("false", .constant false),
      ("prog", .action (.standard .sequence)),
      ("if", .action (.standard .ifNonzero)),
      ("loop", .action (.standard .loop)),
      ("try", .action (.reflective .attempt)),
      ("fail", .action (.reflective .fail)),
      ("let", .action (.reflective .bindLocal)),
      ("fn", .action (.reflective .lambda)),
      ("run", .action (.reflective .runText)),
      ("+", .action (.standard .sum)),
      ("*", .action (.standard .product)),
      ("<", .action (.reflective .less)),
      ("=", .action (.reflective .equal)),
      ("num", .action (.reflective .number)),
      ("str", .action (.reflective .string)),
      ("show", .action (.reflective .display)),
      ("debug", .action (.reflective .inspect)),
      ("kind", .action (.reflective .kind)),
      ("nums", .action (.feature .vector)),
      ("strs", .action (.reflective .strings)),
      ("opaque", .action (.reflective .hostText)),
      ("quote", .action (.reflective .quote)),
      ("count", .action (.reflective .count)),
      ("pos", .action (.reflective .position)),
      ("atom", .action (.reflective .isAtom)),
      ("name", .action (.reflective .symbolName)),
      ("size", .action (.reflective .size)),
      ("set", .action (.reflective .exchange)),
      ("get", .action (.reflective .get)),
      ("unset", .action (.reflective .unset)),
      ("bound", .action (.reflective .isBound))]

/-- The value of an entry. An operation gets the given number as its identity. -/
def Entry.toValue (serial : Nat) : Entry → Value
  | constant value => .bool value
  | action what => .operation ⟨⟨0, serial⟩, what⟩

/-- The environment of the vocabulary alone. Its operations are numbered from zero. -/
def environment (vocabulary : Vocabulary) : Environment :=
  .ofList (vocabulary.entries.zipIdx.map fun ((name, entry), serial) => (name, entry.toValue serial))

/-- The first number that is free for other identities. -/
def serial (vocabulary : Vocabulary) : Nat := vocabulary.entries.length

end Vocabulary

end SExprLang
