import SExprLang.Batch
import SExprLang.Demo.Page

/-!
# One feature program in two vocabularies

The same program gives a vector of numbers or the text of a database query, depending on the vocabulary it is evaluated
in.
-/

namespace SExprLang.Demo.Features

/-- Binds the codes that the feature program tests for. -/
def constants : String := "
(prog
    # country codes
    (set \"IL\" \"+972\")
    (set \"RU\" \"+7\")
    (set \"UK\" \"+44\")
    # area codes
    (set \"LDN\" \"020\")
    (set \"MSK\" \"095\" \"495\")
    (set \"TLV\" \"3\")
)"

/-- One feature for each pair of a country and an area. -/
def features : String := "
(vector
    (and (in phoneCountryCode UK) (in phoneAreaCode LDN))
    (and (in phoneCountryCode IL) (in phoneAreaCode TLV))
    (and (in phoneCountryCode RU) (in phoneAreaCode MSK))
)"

/-- The numeric vocabulary with the codes bound. -/
def numeric : Environment :=
  (runIn Vocabulary.numericFeatures.environment Vocabulary.numericFeatures.serial constants).2

/-- The operations of the query vocabulary, with the setter that the codes are bound by. -/
def queryEnvironment : Environment :=
  let base := Vocabulary.query.environment
  (base.remove "set_str_list").define "set" ((base.get? "set_str_list").getD .nil)

/-- The query vocabulary with the codes bound and a column for each of the two variables. -/
def query : Environment :=
  (runIn queryEnvironment Vocabulary.query.serial constants).2.extend
    [("phoneCountryCode", .string "log.phone_country"), ("phoneAreaCode", .string "log.phone_area")]

/-- The environment of a phone number: its country code and its area code. -/
def row (phone : String × String) : Environment :=
  numeric.extend [("phoneCountryCode", .string phone.1), ("phoneAreaCode", .string phone.2)]

/-- The phone numbers of the second example. -/
def phones : List (String × String) :=
  [("+972", "3"), ("+7", "095"), ("+44", "020"), ("+44", "023"), ("+34", "976")]

/-- The vectors of the phone numbers, evaluated as a batch. -/
def vectors : List (Except Error Value) :=
  match compile features with
  | .error error => [.error (.compile error)]
  | .ok e =>
    match Batch.evaluate ⟨1, Batch.defaultPoolThreshold⟩ (.inOrder phones.length) e Vocabulary.numericFeatures.serial
      (phones.map row) with
    | some (outcomes, _) => outcomes.map (·.mapError .eval)
    | none => []

/-- A line with a phone number and its vector. -/
def line (phone : String × String) (outcome : Except Error Value) : String :=
  padLeft 5 phone.1 ++ " " ++ padLeft 4 phone.2 ++ " -> " ++ outcomeText outcome

/-- The page of the demonstration. -/
def lines : List String :=
  banner "Feature Programs" ++
  heading "Example 1: one row at a time" ++
  ["+972 3 -> " ++ outcomeText (runIn (row ("+972", "3")) Vocabulary.numericFeatures.serial features).1] ++
  heading "\nExample 2: many rows on a worker pool" ++ List.zipWith line phones vectors ++
  heading "\nExample 3: the same program as SQL" ++
  [outcomeText (runIn query Vocabulary.query.serial features).1]

end SExprLang.Demo.Features
