import SExprLang.Expression

/-!
# Operations

An operation is what a list can have as its head. What it does is an `Action`, one of a fixed set in four families:

* `Action.Standard`: sequences, arithmetic, assignment, loops, conditions and named functions;
* `Action.Feature`: vectors of numbers, tests and string lists;
* `Action.Query`: the text of database queries;
* `Action.Reflective`: errors, local bindings, closures, comparison, conversion and the expressions themselves.

Two operations are the same only if they are the same creation, which their `Identity` tells.
-/

namespace SExprLang

/-- A creation: a number that is given out once within its region. Work that runs side by side has a region each. -/
structure Identity where
  region : Nat
  serial : Nat
deriving DecidableEq, Inhabited

namespace Action

/-- Sequences, arithmetic, assignment, loops, conditions and named functions. -/
inductive Standard where
  /-- Evaluates all arguments and gives the last result. -/
  | sequence
  /-- The sum of the arguments. -/
  | sum
  /-- The product of the arguments. -/
  | product
  /-- The product of the arguments, of which there must be one. -/
  | nonemptyProduct
  /-- Binds a name to a value. -/
  | assign
  /-- Evaluates a body for every integer of a range, with a name bound to it. -/
  | loop
  /-- Evaluates the second argument if the first is not zero, and the third if it is. -/
  | ifNonzero
  /-- Evaluates the second argument if the first is greater than one, and the third if not. -/
  | ifAboveOne
  /-- Binds a name to a function of one parameter. -/
  | defineFunction
  /-- Calls a function by its name. -/
  | callFunction
deriving DecidableEq

/-- Vectors of numbers, tests and string lists. -/
inductive Feature where
  /-- The vector of the arguments as numbers. -/
  | vector
  /-- Whether all arguments are true, which must be truth values, up to the first false one. -/
  | allTrue
  /-- Whether all arguments are nonzero as numbers, up to the first zero. -/
  | allNonzero
  /-- Whether a string is in a list of strings. -/
  | member
  /-- Binds a name to a list of strings. -/
  | assignStrings
deriving DecidableEq

/-- The text of database queries. -/
inductive Query where
  /-- A query for the columns that the arguments give. -/
  | select (table label : String)
  /-- Conditions that must all hold. -/
  | conjunction
  /-- The condition that a column has one of the values of a list. -/
  | membership
deriving DecidableEq

/-- Errors, local bindings, closures, comparison, conversion and the expressions themselves. -/
inductive Reflective where
  /-- The value of the argument, or the message of its error. -/
  | attempt
  /-- An error with the given message. -/
  | fail
  /-- The value of a body with a name bound for it alone. -/
  | bindLocal
  /-- A new operation of one parameter. -/
  | lambda
  /-- What `lambda` makes: evaluates the body with the parameter bound to the argument. -/
  | closure (parameter : String) (body : Expression)
  /-- Compiles and evaluates a text. -/
  | runText
  /-- Whether one number is less than another. -/
  | less
  /-- Whether two values are equal. -/
  | equal
  /-- The argument as a number. -/
  | number
  /-- The argument as a string. -/
  | string
  /-- The text of a value. -/
  | display
  /-- The text of a value with its kind. -/
  | inspect
  /-- The name of a value's kind. -/
  | kind
  /-- The list of the arguments as strings. -/
  | strings
  /-- A new host object that holds a text. -/
  | hostText
  /-- The arguments as they are written. -/
  | quote
  /-- The number of arguments. -/
  | count
  /-- Where the argument stands. -/
  | position
  /-- Whether the argument is not a list. -/
  | isAtom
  /-- The name of the argument if it is a symbol. -/
  | symbolName
  /-- The number of items of the argument if it is a list. -/
  | size
  /-- Binds a name to a value and gives what it was bound to. -/
  | exchange
  /-- What a name given as a string is bound to. -/
  | get
  /-- Unbinds a name and gives what it was bound to. -/
  | unset
  /-- Whether a name is bound. -/
  | isBound
deriving DecidableEq

end Action

/-- What an operation does with its arguments. -/
inductive Action where
  | standard (action : Action.Standard)
  | feature (action : Action.Feature)
  | query (action : Action.Query)
  | reflective (action : Action.Reflective)
deriving DecidableEq

/-- An action that a program can name and call. -/
structure Operation where
  identity : Identity
  action : Action
deriving DecidableEq

end SExprLang
