import Mathlib.Control.Monad.Basic

/-!
# Results

What is done with the value of a result keeps its failure. A list is processed element by element,
and one failure makes the whole fail. Success is thus one equation between lists: the results are
all successes, in order.
-/

namespace JobSearch

theorem map_eq_ok_iff {x : Except ε α} {f : α → β} {b : β} :
    x.map f = .ok b ↔ ∃ a, x = .ok a ∧ f a = b := by
  cases x <;> simp [Except.map]

theorem map_eq_error_iff {x : Except ε α} {f : α → β} {e : ε} :
    x.map f = .error e ↔ x = .error e := by
  cases x <;> simp [Except.map]

/-- All elements succeed, with these values in this order. -/
theorem mapM_eq_ok_iff {f : α → Except ε β} {xs : List α} {ys : List β} :
    xs.mapM f = .ok ys ↔ xs.map f = ys.map .ok := by
  induction xs generalizing ys with
  | nil =>
    rw [List.mapM_nil, List.map_nil, eq_comm (a := []), List.map_eq_nil_iff]
    exact ⟨fun h => (Except.ok.inj h).symm, fun h => h ▸ rfl⟩
  | cons x xs ih =>
    rw [List.mapM_cons, List.map_cons]
    cases hx : f x with
    | error e => cases ys <;> simp [bind, Except.bind]
    | ok y =>
      cases hxs : xs.mapM f with
      | error e =>
        have hn (ys : List β) : xs.map f ≠ ys.map .ok := fun h => by simp [hxs] at ih; exact ih h
        cases ys with
        | nil => simp [bind, Except.bind]
        | cons z zs => simp [bind, Except.bind, hn]
      | ok zs =>
        have hm := ih.mp hxs
        cases ys with
        | nil => simp [bind, Except.bind, pure, Except.pure]
        | cons z ws =>
          rw [List.map_cons, List.cons.injEq, ← ih, hxs]
          simp [bind, Except.bind, pure, Except.pure]

/-- The whole succeeds exactly when every element does. -/
theorem exists_mapM_eq_ok_iff {f : α → Except ε β} {xs : List α} :
    (∃ ys, xs.mapM f = .ok ys) ↔ ∀ x ∈ xs, ∃ y, f x = .ok y := by
  simp only [mapM_eq_ok_iff]
  induction xs with
  | nil => exact ⟨fun _ x hx => absurd hx (by simp), fun _ => ⟨[], rfl⟩⟩
  | cons x xs ih =>
    rw [List.forall_mem_cons, ← ih]
    constructor
    · rintro ⟨_ | ⟨y, ys⟩, h⟩
      · cases h
      · obtain ⟨hx, hxs⟩ := List.cons.inj h
        exact ⟨⟨y, hx⟩, ys, hxs⟩
    · rintro ⟨⟨y, hx⟩, ys, hxs⟩
      exact ⟨y :: ys, by rw [List.map_cons, List.map_cons, hx, hxs]⟩

/-- The whole fails exactly with the failure of the first element that fails. -/
theorem mapM_eq_error_iff {f : α → Except ε β} {xs : List α} {e : ε} :
    xs.mapM f = .error e ↔ ∃ before x after, xs = before ++ x :: after ∧
      (∀ y ∈ before, ∃ z, f y = .ok z) ∧ f x = .error e := by
  induction xs with
  | nil => simp [pure, Except.pure]
  | cons x xs ih =>
    rw [List.mapM_cons]
    constructor
    · intro h
      cases hx : f x with
      | error d =>
        rw [hx] at h
        obtain rfl := Except.error.inj h
        exact ⟨[], x, xs, rfl, List.forall_mem_nil _, hx⟩
      | ok y =>
        cases hxs : xs.mapM f with
        | error d =>
          rw [hx, hxs] at h
          obtain rfl := Except.error.inj h
          obtain ⟨before, z, after, rfl, hb, hz⟩ := ih.mp hxs
          exact ⟨x :: before, z, after, rfl, List.forall_mem_cons.mpr ⟨⟨y, hx⟩, hb⟩, hz⟩
        | ok ys =>
          rw [hx, hxs] at h
          cases h
    · rintro ⟨_ | ⟨y, before⟩, z, after, he, hb, hz⟩
      · obtain ⟨rfl, rfl⟩ := List.cons.inj he
        rw [hz]
        rfl
      · obtain ⟨rfl, rfl⟩ := List.cons.inj he
        obtain ⟨⟨w, hw⟩, hb⟩ := List.forall_mem_cons.mp hb
        rw [hw, ih.mpr ⟨before, z, after, rfl, hb, hz⟩]
        rfl

end JobSearch
