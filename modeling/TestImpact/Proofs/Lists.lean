import Mathlib.Data.List.Infix

/-!
# Lists that are cut into pieces

How a list with an element in front or at its end is cut into pieces, as inductions along a run
split its lines, and how a run of elements with a property is told from what follows it.
-/

namespace TestImpact

variable {α : Type} {P : List α → Prop} {xs : List α} {x last : α}

/-- The prefixes of a list are the empty one and those that begin with its head. -/
theorem forall_prefix_cons_iff :
    (∀ p, p <+: x :: xs → P p) ↔ P [] ∧ ∀ p, p <+: xs → P (x :: p) := by
  constructor
  · intro h
    exact ⟨h [] List.nil_prefix, fun p hp => h _ (List.cons_prefix_cons.mpr ⟨rfl, hp⟩)⟩
  · rintro ⟨hnil, hcons⟩ p hp
    rcases List.prefix_cons_iff.mp hp with rfl | ⟨q, rfl, hq⟩
    · exact hnil
    · exact hcons q hq

/-- The initial pieces of a list are those of its front and the list itself. -/
theorem forall_prefix_concat_iff :
    (∀ p, p <+: xs ++ [x] → P p) ↔ (∀ p, p <+: xs → P p) ∧ P (xs ++ [x]) := by
  simp only [List.prefix_concat_iff, or_imp, forall_and, forall_eq]
  exact and_comm

/-- An element of a list with one more at its end is that one or stands before it. -/
theorem concat_eq_append_cons {before after : List α} (h : xs ++ [last] = before ++ x :: after) :
    (before = xs ∧ x = last ∧ after = []) ∨
      ∃ init, after = init ++ [last] ∧ xs = before ++ x :: init := by
  rcases List.eq_nil_or_concat after with rfl | ⟨init, last', rfl⟩
  · obtain ⟨rfl, hlast⟩ := List.append_inj' h rfl
    exact .inl ⟨rfl, (List.singleton_inj.mp hlast).symm, rfl⟩
  · rw [List.concat_eq_append, ← List.cons_append, ← List.append_assoc] at h
    obtain ⟨rfl, hlast⟩ := List.append_inj' h rfl
    obtain rfl := List.singleton_inj.mp hlast
    exact .inr ⟨init, List.concat_eq_append, rfl⟩

/-- A piece at the start of a list that ends before an element, if it does not have that element. -/
theorem isPrefix_of_notMem {p ys : List α} (h : p <+: xs ++ x :: ys) (hx : x ∉ p) : p <+: xs := by
  rcases List.prefix_or_prefix_of_prefix h (List.prefix_append xs (x :: ys)) with hle | ⟨q, rfl⟩
  · exact hle
  · cases q with
    | nil => rw [List.append_nil]
    | cons d q =>
      rw [List.prefix_append_right_inj, List.cons_prefix_cons] at h
      exact absurd (by simp [h.1]) hx

/-- Elements with a property, and a rest that does not begin with such an element, are the only such
parts of a list. -/
theorem append_inj_of_forall {p : α → Prop} :
    ∀ {xs ys rest rest' : List α}, (∀ x ∈ xs, p x) → (∀ y ∈ ys, p y) →
      (∀ x ∈ rest.head?, ¬ p x) → (∀ x ∈ rest'.head?, ¬ p x) → xs ++ rest = ys ++ rest' →
      xs = ys ∧ rest = rest'
  | [], [], _, _, _, _, _, _, h => ⟨rfl, h⟩
  | [], y :: ys, rest, rest', _, hys, hrest, _, h => by
    have hhead : rest = y :: (ys ++ rest') := h
    exact absurd (hys y (by simp)) (hrest y (by simp [hhead]))
  | x :: xs, [], rest, rest', hxs, _, _, hrest', h => by
    have hhead : rest' = x :: (xs ++ rest) := h.symm
    exact absurd (hxs x (by simp)) (hrest' x (by simp [hhead]))
  | x :: xs, y :: ys, rest, rest', hxs, hys, hrest, hrest', h => by
    obtain ⟨rfl, htail⟩ := List.cons.inj h
    obtain ⟨rfl, rfl⟩ := append_inj_of_forall (fun x' h' => hxs x' (by simp [h']))
      (fun y' h' => hys y' (by simp [h'])) hrest hrest' htail
    exact ⟨rfl, rfl⟩

/-- A list that is cut at two occurrences of an element has the later one behind the earlier cut. -/
theorem append_cons_eq_append_cons_iff {xs ys rest rest' : List α} :
    xs ++ x :: rest = ys ++ x :: rest' ↔
      (xs = ys ∧ rest = rest') ∨ (∃ m, ys = xs ++ x :: m ∧ rest = m ++ x :: rest') ∨
        ∃ m, xs = ys ++ x :: m ∧ rest' = m ++ x :: rest := by
  constructor
  · intro h
    rcases List.append_eq_append_iff.mp h with ⟨m, rfl, hm⟩ | ⟨m, rfl, hm⟩
    · cases m with
      | nil => exact .inl ⟨(List.append_nil xs).symm, (List.cons.inj hm).2⟩
      | cons c m =>
        obtain ⟨rfl, hrest⟩ := List.cons.inj hm
        exact .inr (.inl ⟨m, rfl, hrest⟩)
    · cases m with
      | nil => exact .inl ⟨List.append_nil ys, (List.cons.inj hm).2.symm⟩
      | cons c m =>
        obtain ⟨rfl, hrest⟩ := List.cons.inj hm
        exact .inr (.inr ⟨m, rfl, hrest⟩)
  · rintro (⟨rfl, rfl⟩ | ⟨m, rfl, rfl⟩ | ⟨m, rfl, rfl⟩)
    · rfl
    · simp
    · simp

/-- The first occurrence of an element cuts a list in one way only. -/
theorem append_cons_inj_of_first {xs ys rest rest' : List α} (hxs : x ∉ xs) (hys : x ∉ ys)
    (h : xs ++ x :: rest = ys ++ x :: rest') : xs = ys ∧ rest = rest' := by
  obtain ⟨rfl, hrest⟩ := append_inj_of_forall (p := (· ≠ x))
    (fun y hy => ne_of_mem_of_not_mem hy hxs) (fun y hy => ne_of_mem_of_not_mem hy hys) (by simp)
    (by simp) h
  exact ⟨rfl, (List.cons.inj hrest).2⟩

/-- The last occurrence of an element cuts a list in one way only. -/
theorem append_cons_inj_of_last {xs ys rest rest' : List α} (hrest : x ∉ rest)
    (hrest' : x ∉ rest') (h : xs ++ x :: rest = ys ++ x :: rest') : xs = ys ∧ rest = rest' := by
  have hreverse := congrArg List.reverse h
  simp only [List.reverse_append, List.reverse_cons, List.append_assoc, List.singleton_append]
    at hreverse
  obtain ⟨hright, hleft⟩ := append_cons_inj_of_first (by simpa using hrest) (by simpa using hrest')
    hreverse
  exact ⟨List.reverse_injective hleft, List.reverse_injective hright⟩

/-- What is put together from parts has the elements of the parts and of what stands between. -/
theorem forall_mem_intercalate {p : α → Prop} {sep : List α} {parts : List (List α)}
    (hsep : ∀ y ∈ sep, p y) (hparts : ∀ part ∈ parts, ∀ y ∈ part, p y) :
    ∀ y ∈ sep.intercalate parts, p y := by
  induction parts with
  | nil => simp
  | cons part parts ih =>
    have ih := ih fun q hq => hparts q (by simp [hq])
    cases parts with
    | nil =>
      rw [List.intercalate_singleton]
      exact hparts part (by simp)
    | cons part' parts =>
      rw [List.intercalate_cons_cons, List.append_assoc]
      exact List.forall_mem_append.mpr
        ⟨hparts part (by simp), List.forall_mem_append.mpr ⟨hsep, ih⟩⟩

end TestImpact
