import JobSearch.Query.Questions

/-!
# Questions decide results

An operation that resolves dates learns nothing of its calendar but the day that counts as today and
the recognizer's answers to its questions. Calendars that agree on these are not told apart: not by
a part that is written, and so neither by a query that is built nor by a sweep.
-/

namespace JobSearch

/-- The calendars have the same today, and their recognizers give the same answers about certain
texts. -/
structure Calendar.AgreeOn (texts : List Text) (cal cal' : Calendar) : Prop where
  today_eq : cal.today = cal'.today
  recognize_eq : ∀ t ∈ texts, cal.recognize t cal.today = cal'.recognize t cal.today

variable {cal cal' : Calendar}

namespace Calendar

theorem AgreeOn.of_subset {ts us : List Text} (h : AgreeOn us cal cal') (hs : ts ⊆ us) :
    AgreeOn ts cal cal' :=
  ⟨h.today_eq, fun t ht => h.recognize_eq t (hs ht)⟩

theorem resolve_congr_questions {t : Option Text} (h : AgreeOn (questions t) cal cal') :
    cal.resolve t = cal'.resolve t := by
  unfold resolve
  cases hq : question? t with
  | none => exact h.today_eq
  | some q =>
    have hr := h.recognize_eq q (by rw [questions, hq]; exact List.mem_singleton_self q)
    dsimp only
    rw [hr, h.today_eq]

theorem lastMonth_congr_questions {t : Option Text} (h : AgreeOn (questions t) cal cal') :
    cal.lastMonth t = cal'.lastMonth t := by
  rw [lastMonth, lastMonth, resolve_congr_questions h]

end Calendar

namespace Part

theorem token_congr_questions {p : Part} (h : Calendar.AgreeOn p.questions cal cal') :
    p.token cal = p.token cal' := by
  cases p with
  | lastMonth input => rw [token, token, Calendar.lastMonth_congr_questions h]
  | text | site | after | before | salary => rfl

end Part

namespace Query

open Calendar

/-- Parts that are written one by one until one is refused: the questions about a part are asked
only where the parts before it are written. -/
theorem mapM_token_congr_questions {ps : List Part}
    (h : AgreeOn (buildQuestions cal ps) cal cal') :
    ps.mapM (Part.token cal) = ps.mapM (Part.token cal') := by
  induction ps with
  | nil => rfl
  | cons p ps ih =>
    have hp : p.token cal = p.token cal' :=
      Part.token_congr_questions (h.of_subset (List.subset_append_left ..))
    rw [List.mapM_cons, List.mapM_cons, ← hp]
    cases ht : p.token cal with
    | error e => rfl
    | ok token =>
      have hps : AgreeOn (buildQuestions cal ps) cal cal' := h.of_subset (by
        rw [buildQuestions, ht]
        exact List.subset_append_right ..)
      rw [ih hps]

/-- Calendars that agree on the questions that building asks build the same query, or refuse the
same part. -/
theorem build_congr_questions {ps : List Part} (h : AgreeOn (buildQuestions cal ps) cal cal') :
    build cal ps = build cal' ps := by
  rw [build, build, mapM_token_congr_questions h]

/-- Calendars that agree on the question that a sweep asks give the same sweep. -/
theorem variations_congr_questions {query : Text} {count : Nat}
    (h : AgreeOn (variationQuestions query count) cal cal') :
    variations cal query count = variations cal' query count := by
  unfold variations
  split
  · rfl
  · next hc =>
    rw [variationQuestions, if_neg hc] at h
    rw [resolve_congr_questions h]

end Query

end JobSearch
