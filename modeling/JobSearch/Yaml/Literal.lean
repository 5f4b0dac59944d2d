import JobSearch.Yaml.Scalar

/-!
# What plain scalars stand for

A plain scalar may stand for no value, a truth value or a number. A text that does, or that some
reader might take for one, cannot be written plainly.
-/

namespace JobSearch.Yaml

/-- The scalar stands for no value. -/
def isNull (t : Text) : Bool := ["null".toList, "Null".toList, "NULL".toList, ['~']].contains t

/-- The scalar stands for a truth value. -/
def isBool (t : Text) : Bool :=
  ["true".toList, "True".toList, "TRUE".toList, "false".toList, "False".toList,
    "FALSE".toList].contains t

/-- The text without this start, if it has it. -/
def dropStart? (start t : Text) : Option Text :=
  if start.isPrefixOf t then some (t.drop start.length) else none

/-- Reads digits of a base, at least one. -/
def digits? (base : Nat) (t : Text) : Option Nat :=
  if t.isEmpty then none
  else
    (t.mapM fun c => (hexValue? c).bind fun d => if d < base then some d else none).map fun ds =>
      ds.foldl (fun n d => base * n + d) 0

/-- The text starts with a sign. -/
def isSigned (t : Text) : Bool := startsWith '+' t || startsWith '-' t

/-- A digit string with a zero in front is no number. -/
def hasLeadingZero (t : Text) : Bool :=
  let t := if isSigned t then t.drop 1 else t
  decide (1 < t.length) && startsWith '0' t && (t.drop 1).all Char.isDigit

/-- Reads a natural number up to `limit`: decimal, or after `0x`, `0o` and `0b` in another base. -/
def natural? (limit : Nat) (t : Text) : Option Nat :=
  let atMost (n : Nat) : Option Nat := if n ≤ limit then some n else none
  let u := (dropStart? ['+'] t).getD t
  let based (start : String) (base : Nat) : Option Nat :=
    ((dropStart? start.toList u).bind (digits? base)).bind atMost
  let decimal : Option Nat :=
    if isSigned u || hasLeadingZero t then none else (digits? 10 u).bind atMost
  (based "0x" 16).or ((based "0o" 8).or ((based "0b" 2).or decimal))

/-- The text is the decimal or based form of a negative integer of at most `limit`. -/
def isNegative (limit : Nat) (t : Text) : Bool :=
  let fits (n : Option Nat) : Bool := (n.map fun m => decide (m ≤ limit)).getD false
  fits ((dropStart? "-0x".toList t).bind (digits? 16)) ||
    fits ((dropStart? "-0o".toList t).bind (digits? 8)) ||
    fits ((dropStart? "-0b".toList t).bind (digits? 2)) ||
    (!hasLeadingZero t && fits ((dropStart? ['-'] t).bind (digits? 10)))

/-- The text looks like a decimal number with a fraction or an exponent. -/
def isDecimal (t : Text) : Bool :=
  let t := if isSigned t then t.drop 1 else t
  let (whole, r) := t.span Char.isDigit
  let (fraction, r) := match r with
    | '.' :: u => u.span Char.isDigit
    | u => ([], u)
  let exponent := match r with
    | [] => true
    | c :: u =>
      let u := if isSigned u then u.drop 1 else u
      (c == 'e' || c == 'E') && !u.isEmpty && u.all Char.isDigit
  !(whole.isEmpty && fraction.isEmpty) && exponent

/-- The scalar stands for a number. -/
def isNumber (t : Text) : Bool :=
  (natural? (Nat.pow 2 128 - 1) t).isSome || isNegative (Nat.pow 2 127) t ||
    [".inf", ".Inf", ".INF", "+.inf", "+.Inf", "+.INF", "-.inf", "-.Inf", "-.INF", ".nan", ".NaN",
      ".NAN"].any (fun w => w.toList == t) ||
    (!hasLeadingZero t && isDecimal t)

/-- The words that some reader takes for something else than a text. -/
def loadedWords : List Text :=
  ["y", "yes", "n", "no", "on", "off", "true", "false", "null", "nil", "~", "nan"].map (·.toList)

/-- The text, written plainly, might be taken for something else than a text. -/
def isAmbiguous (t : Text) : Bool :=
  t.isEmpty || isNull t || isBool t || isNumber t ||
    (t.head?.map fun c => c.isDigit || c == '-' || c == '.' || c == '+').getD false ||
    loadedWords.contains (Text.lower t)

end JobSearch.Yaml
