import JobSearch.Calendar.Date
import JobSearch.Json.Error
import JobSearch.Part.Kind
import JobSearch.Url.Error

/-!
# Errors of queries

An error is a cause with the data that its message shows, and one function words all messages.
-/

namespace JobSearch

/-- What is wrong with the input of a part. -/
inductive InputProblem where
  /-- No input where one is needed. -/
  | missing
  /-- A text without any visible character. -/
  | empty
  /-- An operator value with white space inside. -/
  | blankInside
  /-- A salary range without a lower bound. -/
  | noLowerBound
  /-- A parsed salary range without a lower bound. -/
  | openBelow
  /-- A value of another kind where a string is needed. -/
  | notString (kind : Text)
  /-- A value of another kind where an array is needed. -/
  | notArray (kind : Text)
  /-- A value of another kind where a bound is needed. -/
  | notNumber (kind : Text)
  /-- An array of no bounds or of more than two. -/
  | notOneOrTwo
  /-- A number that is not a natural number of 64 bits. -/
  | notWhole (number : Json.Number)
  deriving DecidableEq, Repr

/-- The problem in words. -/
def InputProblem.message : InputProblem → Text
  | .missing => "input is required".toList
  | .empty => "input must be a non-empty string".toList
  | .blankInside => "input must not contain whitespace".toList
  | .noLowerBound => "input must start with a number".toList
  | .openBelow => "range must start with a number".toList
  | .notString kind => "expected a string, got ".toList ++ kind
  | .notArray kind => "expected an array, got ".toList ++ kind
  | .notNumber kind => "expected a number, got ".toList ++ kind
  | .notOneOrTwo => "expected [min] or [min, max]".toList
  | .notWhole number => number.toText ++ " is not a whole positive number".toList

/-- Why a query cannot be read, written or derived. -/
inductive QueryError where
  /-- The input of a part is not usable. -/
  | invalidInput (part : PartKind) (problem : InputProblem)
  /-- A salary bound is above the highest one that is searched for. -/
  | salaryCeiling (max ceiling : Nat)
  /-- No part has this type. -/
  | unknownPartType (name : Text)
  /-- A token has an operator that no query has. -/
  | unknownQueryPart (token : Text)
  /-- A token with two dots is not a salary range. -/
  | invalidSalary (token : Text)
  /-- Moving a date by some months leaves the calendar. -/
  | dateOutOfRange (date : Date) (months : Int)
  /-- More months are asked for than a sweep may have. -/
  | variationCount (count max : Nat)
  /-- The search endpoint is not a URL. -/
  | url (error : Url.Error)
  /-- A form is not the JSON of a list of parts. -/
  | json (error : Json.Error)
  deriving DecidableEq

/-- The error in words. -/
def QueryError.message : QueryError → Text
  | .invalidInput part problem =>
    "Invalid input for ".toList ++ part.name ++ " part: ".toList ++ problem.message
  | .salaryCeiling max ceiling =>
    "Salary max ".toList ++ Text.ofNat max ++ " exceeds ".toList ++ Text.ofNat ceiling ++
      ", larger numbers match unrelated figures in results".toList
  | .unknownPartType name => "Unknown part type: ".toList ++ name
  | .unknownQueryPart token => "Unknown query part: ".toList ++ token
  | .invalidSalary token => "Invalid salary range: ".toList ++ token
  | .dateOutOfRange date months =>
    "Shifting ".toList ++ date.iso ++ " by ".toList ++ Text.ofInt months ++
      " months leaves the supported calendar".toList
  | .variationCount count max =>
    "Variation count ".toList ++ Text.ofNat count ++ " exceeds ".toList ++ Text.ofNat max
  | .url error => "Invalid search url: ".toList ++ error.message
  | .json error => "JSON error: ".toList ++ error.message

end JobSearch
