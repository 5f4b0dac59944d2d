import JobSearch.Calendar.Date

/-!
# Reading dates written in numbers

A date in numbers has its year, month and day in this order with hyphens between them. White space
may stand around each number, leading zeros may be missing, and a year of more than four digits
needs a sign.
-/

namespace JobSearch

/-- Reads the digits at the start of a text, at most `limit` of them and at least one. -/
def leadingNumber? (limit : Nat) (t : Text) : Option (Nat × Text) :=
  let digits := (t.take limit).takeWhile Char.isDigit
  (Text.toNat? digits).map fun n => (n, t.drop digits.length)

/-- Reads a year: up to four digits, or a sign and any number of digits. -/
def leadingYear? : Text → Option (Int × Text)
  | '-' :: r => (leadingNumber? r.length r).map fun (n, rest) => (-(n : Int), rest)
  | '+' :: r => (leadingNumber? r.length r).map fun (n, rest) => ((n : Int), rest)
  | r => (leadingNumber? 4 r).map fun (n, rest) => ((n : Int), rest)

/-- Passes over a hyphen and the white space on both sides of it. -/
def afterHyphen? (t : Text) : Option Text :=
  match t.trimStart with
  | '-' :: r => some (Text.trimStart r)
  | _ => none

/-- Reads a date in numbers. -/
def Date.ofIso? (t : Text) : Option Date := do
  let (year, r) ← leadingYear? t.trimStart
  let (month, r) ← leadingNumber? 2 (← afterHyphen? r)
  let (day, r) ← leadingNumber? 2 (← afterHyphen? r)
  if r.isAllBlank then Date.ofYMD? year month day else none

end JobSearch
