/-!
# Results that pass on an error

When a computation of several parts fails, the first part that fails has done it: a map, a sequence
of two steps, or a fold over a list (`foldlM_eq_error_iff`).
-/

namespace TestImpact

variable {ε α β : Type}

section Results

variable {result : Except ε α} {f : α → β} {g : α → Except ε β}

/-- What is done to a result succeeds if and only if the result is there. -/
theorem map_eq_ok_iff {b : β} : result.map f = .ok b ↔ ∃ a, result = .ok a ∧ f a = b := by
  cases result <;> simp [Except.map]

/-- What is done to a result fails as the result does. -/
theorem map_eq_error_iff {e : ε} : result.map f = .error e ↔ result = .error e := by
  cases result <;> simp [Except.map]

/-- Two steps succeed if and only if both do. -/
theorem bind_eq_ok_iff {b : β} :
    result >>= g = .ok b ↔ ∃ a, result = .ok a ∧ g a = .ok b := by
  cases result <;> simp [bind, Except.bind]

/-- Two steps fail with the first that fails. -/
theorem bind_eq_error_iff {e : ε} :
    result >>= g = .error e ↔ result = .error e ∨ ∃ a, result = .ok a ∧ g a = .error e := by
  cases result <;> simp [bind, Except.bind]

end Results

section Folds

variable {step : β → α → Except ε β} {xs : List α} {start last : β}

/-- The last step of a run is taken after all others. -/
theorem foldlM_concat_eq_ok_iff {x : α} :
    (xs ++ [x]).foldlM step start = .ok last ↔
      ∃ mid, xs.foldlM step start = .ok mid ∧ step mid x = .ok last := by
  simp [List.foldlM_append, bind_eq_ok_iff]

/-- A fold fails at the first element whose step does. -/
theorem foldlM_eq_error_iff {e : ε} :
    xs.foldlM step start = .error e ↔ ∃ before x after mid, xs = before ++ x :: after ∧
      before.foldlM step start = .ok mid ∧ step mid x = .error e := by
  induction xs generalizing start with
  | nil =>
    constructor
    · intro h
      cases h
    · rintro ⟨before, x, after, mid, hxs, -⟩
      simp at hxs
  | cons x xs ih =>
    rw [List.foldlM_cons, bind_eq_error_iff]
    constructor
    · rintro (hfirst | ⟨next, hfirst, hrest⟩)
      · exact ⟨[], x, xs, start, rfl, rfl, hfirst⟩
      · obtain ⟨before, y, after, mid, rfl, hbefore, hy⟩ := ih.mp hrest
        refine ⟨x :: before, y, after, mid, rfl, ?_, hy⟩
        rw [List.foldlM_cons, bind_eq_ok_iff]
        exact ⟨next, hfirst, hbefore⟩
    · rintro ⟨before, y, after, mid, hxs, hbefore, hy⟩
      cases before with
      | nil =>
        obtain ⟨rfl, rfl⟩ := List.cons.inj hxs
        cases hbefore
        exact .inl hy
      | cons z before =>
        obtain ⟨rfl, rfl⟩ := List.cons.inj hxs
        rw [List.foldlM_cons, bind_eq_ok_iff] at hbefore
        obtain ⟨next, hfirst, hbefore⟩ := hbefore
        exact .inr ⟨next, hfirst, ih.mpr ⟨before, y, after, mid, rfl, hbefore, hy⟩⟩

end Folds

end TestImpact
