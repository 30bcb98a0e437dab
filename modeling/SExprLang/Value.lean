import SExprLang.Decimal.Layout
import SExprLang.Operation
import SExprLang.Text.Quoted

/-!
# Values

What expressions evaluate to and names are bound to. Operations and host objects are equal only to themselves, numbers
are compared as numbers, and values of different kinds are never equal (`Value.eqv`).
-/

namespace SExprLang

/-- The kinds of values. -/
inductive Kind where
  | nil
  | bool
  | number
  | string
  | numbers
  | strings
  | operation
  | host
deriving DecidableEq

/-- The name of a kind. -/
def Kind.name : Kind → String
  | nil => "nil"
  | bool => "bool"
  | number => "number"
  | string => "string"
  | numbers => "numbers"
  | strings => "strings"
  | operation => "operation"
  | host => "opaque"

/-- What a host object holds. Programs cannot look into it. -/
inductive HostContent where
  | text (text : String)
  | integer (value : Int)
  /-- A function of one parameter. -/
  | function (parameter : String) (body : Expression)
deriving DecidableEq

/-- An object that programs can pass around and only the host can use. -/
structure HostObject where
  identity : Identity
  content : HostContent
deriving DecidableEq

/-- A value. -/
inductive Value where
  | nil
  | bool (value : Bool)
  | number (value : Double)
  | string (value : String)
  | numbers (values : List Double)
  | strings (values : List String)
  | operation (operation : Operation)
  | host (object : HostObject)
deriving DecidableEq

namespace Value

instance : Inhabited Value := ⟨nil⟩

/-- The kind of a value. -/
def kind : Value → Kind
  | nil => .nil
  | bool _ => .bool
  | number _ => .number
  | string _ => .string
  | numbers _ => .numbers
  | strings _ => .strings
  | operation _ => .operation
  | host _ => .host

/-- Whether a value is nil. -/
def isNil : Value → Bool
  | nil => true
  | _ => false

/-- Whether a value is an operation. -/
def isOperation : Value → Bool
  | operation _ => true
  | _ => false

/-! ## Equality -/

/-- Whether two sequences of numbers are of one length and equal number by number. -/
def numbersEqv : List Double → List Double → Bool
  | [], [] => true
  | a :: as, b :: bs => a.numEq b && numbersEqv as bs
  | _, _ => false

/-- Whether two values are equal. -/
def eqv : Value → Value → Bool
  | nil, nil => true
  | bool a, bool b => a == b
  | number a, number b => a.numEq b
  | string a, string b => a == b
  | numbers a, numbers b => numbersEqv a b
  | strings a, strings b => a == b
  | operation a, operation b => a.identity == b.identity
  | host a, host b => a.identity == b.identity
  | _, _ => false

/-! ## Text -/

/-- Truth values as words. -/
def boolText (b : Bool) : String := if b then "true" else "false"

/-- The text of a value. -/
def display : Value → String
  | nil => "nil"
  | bool b => boolText b
  | number n => n.display
  | string s => s
  | numbers ns => "[" ++ " ".intercalate (ns.map Double.display) ++ "]"
  | strings ss => "[" ++ " ".intercalate (ss.map Text.quote) ++ "]"
  | operation _ => "<operation>"
  | host _ => "<opaque>"

/-- The text of a value with its kind, from which the value can be told. -/
def inspect : Value → String
  | nil => "Nil"
  | bool b => "Bool(" ++ boolText b ++ ")"
  | number n => "Number(" ++ n.inspect ++ ")"
  | string s => "String(" ++ Text.quote s ++ ")"
  | numbers ns => "Numbers([" ++ ", ".intercalate (ns.map Double.inspect) ++ "])"
  | strings ss => "Strings([" ++ ", ".intercalate (ss.map Text.quote) ++ "])"
  | operation _ => "Operation(..)"
  | host _ => "Opaque(..)"

end Value

end SExprLang
