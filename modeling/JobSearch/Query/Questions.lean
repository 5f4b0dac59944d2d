import JobSearch.Query.Sweep

/-!
# What is asked of a recognizer

Every operation that resolves dates asks the recognizer of its calendar about certain texts, always
with the day that counts as today as the reference.
-/

namespace JobSearch

/-- The texts that resolving asks about. -/
def Calendar.questions (t : Option Text) : List Text := (Calendar.question? t).toList

/-- The texts that writing a part asks about. -/
def Part.questions : Part → List Text
  | .lastMonth input => Calendar.questions input
  | _ => []

namespace Query

/-- The texts that building asks about, in order; nothing is asked after a part that is refused. -/
def buildQuestions (cal : Calendar) : List Part → List Text
  | [] => []
  | p :: ps =>
    p.questions ++ (if (p.token cal).isOk then buildQuestions cal ps else [])

/-- The texts that a sweep asks about. -/
def variationQuestions (query : Text) (count : Nat) : List Text :=
  if maxVariationCount < count then [] else Calendar.questions (some query)

end Query

end JobSearch
