import JobSearch.Part.Basic

/-!
# Tokens of parts

A part is written as a token: free text as it is, a salary range with two dots, an operator with
its name, a colon and its value. Reading a token tries the dots first, then the first colon.
-/

namespace JobSearch

/-- The dots between the bounds of a salary range. -/
def rangeDots : Text := "..".toList

/-- The tokens that only group others. -/
def structuralTokens : List Text := ["(".toList, ")".toList, "OR".toList, "AND".toList]

namespace SalaryRange

/-- The token of a salary range. -/
def token (r : SalaryRange) : Except QueryError Text :=
  match r.min with
  | none => .error (.invalidInput .salary .noLowerBound)
  | some min =>
    match r.max with
    | none => .ok (Text.ofNat min.toNat ++ rangeDots)
    | some max =>
      if salaryCeiling < max.toNat then .error (.salaryCeiling max.toNat salaryCeiling)
      else .ok (Text.ofNat min.toNat ++ rangeDots ++ Text.ofNat max.toNat)

/-- Reads one side of a salary range; an empty side is an absent bound. -/
def readBound (token side : Text) : Except QueryError (Option UInt64) :=
  if side.isEmpty then .ok none
  else
    match Text.toWord? side with
    | some n => .ok (some n)
    | none => .error (.invalidSalary token)

/-- Reads a token with two dots as a salary range, split at the first pair of dots. -/
def ofToken (token : Text) : Except QueryError SalaryRange :=
  match Text.cutAt? rangeDots token with
  | none => .error (.invalidSalary token)
  | some (left, right) =>
    match readBound token left with
    | .error e => .error e
    | .ok min =>
      match readBound token right with
      | .error e => .error e
      | .ok max => .ok ⟨min, max⟩

end SalaryRange

namespace Part

/-- The token of an operator; its value must be one word. -/
def operatorToken (kind : PartKind) (value : Text) : Except QueryError Text :=
  if value.isEmpty then .error (.invalidInput kind .empty)
  else if value.any Text.isBlank then .error (.invalidInput kind .blankInside)
  else .ok (kind.name ++ ':' :: value)

/-- The token of a part. -/
def token (cal : Calendar) : Part → Except QueryError Text
  | .text input =>
    if input.isAllBlank then .error (.invalidInput .text .empty) else .ok input
  | .site input => operatorToken .site input
  | .after input => operatorToken .after input
  | .before input => operatorToken .before input
  | .salary range => range.token
  | .lastMonth input =>
    (cal.lastMonth input).map fun month => PartKind.after.name ++ ':' :: operatorDate month

/-- The part of an operator token, if a query has the operator. -/
def ofOperator? (operator value : Text) : Option Part :=
  if operator = PartKind.after.name then some (.after value)
  else if operator = PartKind.before.name then some (.before value)
  else if operator = PartKind.site.name then some (.site value)
  else none

/-- Reads a token. A token that only groups others carries no part. -/
def ofToken (token : Text) : Except QueryError (Option Part) :=
  if token.isEmpty ∨ token ∈ structuralTokens then .ok none
  else if token.contains rangeDots then
    (SalaryRange.ofToken token).map fun range => some (.salary range)
  else
    match Text.cutAt? [':'] token with
    | none => .ok (some (.text token))
    | some (operator, value) =>
      match ofOperator? operator value with
      | some part => .ok (some part)
      | none => .error (.unknownQueryPart token)

end Part

end JobSearch
