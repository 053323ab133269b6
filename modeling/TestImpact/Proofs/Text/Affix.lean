/-!
# Texts at the ends of a text

What `isPrefixOf?` and `isSuffixOf?` leave of a text, as equations between texts.
-/

namespace TestImpact.Text

variable {α : Type} [BEq α] [LawfulBEq α]

/-- What is left behind a start is told if and only if a text begins with it. -/
theorem isPrefixOf?_eq_some_iff {start s rest : List α} :
    start.isPrefixOf? s = some rest ↔ s = start ++ rest := by
  induction start generalizing s with
  | nil => exact Option.some_inj
  | cons c start ih =>
    cases s with
    | nil =>
      have hnone : (c :: start).isPrefixOf? [] = none := rfl
      simp [hnone]
    | cons c' s =>
      have hcons : (c :: start).isPrefixOf? (c' :: s) =
          if c == c' then start.isPrefixOf? s else none := rfl
      rw [hcons]
      by_cases h : c = c'
      · simp [h, ih]
      · simp [h, Ne.symm h]

theorem isPrefixOf?_append (start rest : List α) :
    start.isPrefixOf? (start ++ rest) = some rest :=
  isPrefixOf?_eq_some_iff.mpr rfl

/-- Nothing is told if and only if the text does not begin in this way. -/
theorem isPrefixOf?_eq_none_iff {start s : List α} :
    start.isPrefixOf? s = none ↔ ¬ start <+: s := by
  rw [Option.eq_none_iff_forall_ne_some]
  constructor
  · rintro h ⟨rest, rfl⟩
    exact h rest (isPrefixOf?_append start rest)
  · intro h rest hrest
    exact h ⟨rest, (isPrefixOf?_eq_some_iff.mp hrest).symm⟩

/-- What is left before an ending is told if and only if a text ends with it. -/
theorem isSuffixOf?_eq_some_iff {ending s rest : List α} :
    ending.isSuffixOf? s = some rest ↔ s = rest ++ ending := by
  have hmap : ending.isSuffixOf? s =
      (ending.reverse.isPrefixOf? s.reverse).map List.reverse := rfl
  rw [hmap, Option.map_eq_some_iff]
  constructor
  · rintro ⟨r, hr, rfl⟩
    rw [isPrefixOf?_eq_some_iff] at hr
    simpa using congrArg List.reverse hr
  · rintro rfl
    exact ⟨rest.reverse, by simp [isPrefixOf?_append], by simp⟩

/-- Nothing is told if and only if the text does not end in this way. -/
theorem isSuffixOf?_eq_none_iff {ending s : List α} :
    ending.isSuffixOf? s = none ↔ ¬ ending <:+ s := by
  rw [Option.eq_none_iff_forall_ne_some]
  constructor
  · rintro h ⟨rest, rfl⟩
    exact h rest (isSuffixOf?_eq_some_iff.mpr rfl)
  · intro h rest hrest
    exact h ⟨rest, (isSuffixOf?_eq_some_iff.mp hrest).symm⟩

end TestImpact.Text
