import JobSearch.Query

/-!
# Sweeping a query over months

A sweep repeats a query month by month, each time between the first days of two neighbouring
months. The bounds are written as operator tokens: dates that the query already has are taken out,
and an operator is set by replacing its value or by a token at the end.
-/

namespace JobSearch

/-- The number of months of a sweep unless another one is asked for. -/
def defaultVariationCount : Nat := 12

/-- The most months that a sweep may have. -/
def maxVariationCount : Nat := 1200

/-- The start of a token of an operator: its name and a colon. -/
def operatorStart (key : Text) : Text := key ++ [':']

/-- A token is a date operator. -/
def isDateToken (token : Text) : Bool :=
  (operatorStart PartKind.before.name).isPrefixOf token ||
    (operatorStart PartKind.after.name).isPrefixOf token

namespace Query

/-- The words of a query that are no date operators. -/
def stripDates (query : Text) : Text :=
  Text.unwords (query.words.filter fun token => !isDateToken token)

/-- Finds the first `needle` at the start of a word and splits the text in front of it and behind
it. Occurrences are looked for from left to right and do not overlap: one inside a word hides the
characters it covers. `fresh` tells that the place starts a word, `skip` how much is covered. -/
def splitAtOperator (needle : Text) : (skip : Nat) → (fresh : Bool) → Text → Option (Text × Text)
  | _, _, [] => none
  | skip + 1, _, c :: r =>
    (splitAtOperator needle skip (Text.isBlank c) r).map fun (front, back) => (c :: front, back)
  | 0, fresh, c :: r =>
    if needle.isPrefixOf (c :: r) && fresh then some ([], (c :: r).drop needle.length)
    else
      let skip := if needle.isPrefixOf (c :: r) then needle.length - 1 else 0
      (splitAtOperator needle skip (Text.isBlank c) r).map fun (front, back) => (c :: front, back)

/-- Sets an operator of a query: the value of its first token is replaced, or a token is added at
the end. -/
def setOperator (query key value : Text) : Text :=
  let needle := operatorStart key
  match splitAtOperator needle 0 true query with
  | some (front, back) => front ++ needle ++ value ++ back.dropWhile (fun c => !Text.isBlank c)
  | none =>
    if query.isAllBlank then needle ++ value else query.trimEnd ++ ' ' :: needle ++ value

/-- A query with its bounds set to two dates. -/
def between (query : Text) (after before : Date) : Text :=
  setOperator (setOperator query PartKind.before.name (operatorDate before))
    PartKind.after.name (operatorDate after)

end Query

/-- A copy of a query for one month. -/
structure Variation where
  /-- The month, as a reader sees it. -/
  label : Text
  /-- The query bounded to the month. -/
  query : Text
  deriving DecidableEq, Repr

namespace Query

/-- Copies of a query for the months before `month`, the latest first. -/
def sweepFrom (query : Text) : (count : Nat) → (month : Date) → Except QueryError (List Variation)
  | 0, _ => .ok []
  | count + 1, month =>
    match shiftMonth month (-1) with
    | .error e => .error e
    | .ok earlier =>
      (sweepFrom query count earlier).map fun rest =>
        ⟨monthLabel earlier, between query earlier month⟩ :: rest

/-- Copies of a query for `count` months, the latest first, ending with the month before the date
that the query resolves to. -/
def variations (cal : Calendar) (query : Text) (count : Nat) :
    Except QueryError (List Variation) :=
  if maxVariationCount < count then .error (.variationCount count maxVariationCount)
  else
    match shiftMonth (cal.resolve (some query)) 0 with
    | .error e => .error e
    | .ok month => sweepFrom (stripDates query) count month

end Query

end JobSearch
