import TestImpact.Proofs.Text.Affix
import TestImpact.Text.Lines

/-!
# The pieces of a text around a separator

`Text.splitOn` walks over a text with a counter of characters to pass over. The relation `Pieces`
says what it computes without a walk: the first occurrence of the separator ends the first piece,
and the others are the pieces of what follows it. As with the reading of tokens, one biconditional
ties the two (`pieces_iff`). Pieces that are put together with one character between them fall apart
into them again (`splitOn_intercalate`).
-/

namespace TestImpact.Text

/-- The separator occurs in `piece ++ sep ++ rest` behind `piece`, and nowhere earlier. -/
def FirstOccurrence (sep piece rest : List Char) : Prop :=
  ∀ a b, piece ++ sep ++ rest = a ++ sep ++ b → piece.length ≤ a.length

/-- The pieces of a text around a separator. The empty separator stands before and after every
character. -/
inductive Pieces (sep : List Char) : List Char → List (List Char) → Prop
  | last {s} : ¬ sep <:+: s → Pieces sep s [s]
  | cut {piece rest ps} : sep ≠ [] → FirstOccurrence sep piece rest → Pieces sep rest ps →
      Pieces sep (piece ++ sep ++ rest) (piece :: ps)
  | chars {s} : sep = [] → Pieces sep s ([] :: (s.map fun c => [c]) ++ [[]])

/-! ## First occurrences -/

theorem FirstOccurrence.tail {sep piece rest : List Char} {c : Char}
    (h : FirstOccurrence sep (c :: piece) rest) : FirstOccurrence sep piece rest := by
  intro a b heq
  have hlen := h (c :: a) b (by simp only [List.cons_append, heq])
  simpa using hlen

theorem FirstOccurrence.not_prefix {sep piece rest : List Char} {c : Char}
    (h : FirstOccurrence sep (c :: piece) rest) : ¬ sep <+: c :: piece ++ sep ++ rest := by
  rintro ⟨b, heq⟩
  have hlen := h [] b (by simpa using heq.symm)
  simp at hlen

/-- A text in which the separator occurs has a first occurrence of it. -/
theorem exists_firstOccurrence {sep : List Char} :
    ∀ {s : List Char}, sep <:+: s → ∃ piece rest, s = piece ++ sep ++ rest ∧
      FirstOccurrence sep piece rest
  | [], h => by
    rw [List.infix_nil.mp h]
    exact ⟨[], [], rfl, fun _ _ _ => Nat.zero_le _⟩
  | c :: s, h => by
    by_cases hpre : sep <+: c :: s
    · obtain ⟨rest, hrest⟩ := hpre
      exact ⟨[], rest, by simpa using hrest.symm, fun _ _ _ => Nat.zero_le _⟩
    · have hinfix : sep <:+: s := (List.infix_cons_iff.mp h).resolve_left hpre
      obtain ⟨piece, rest, rfl, hfirst⟩ := exists_firstOccurrence hinfix
      refine ⟨c :: piece, rest, by simp, fun a b heq => ?_⟩
      cases a with
      | nil => exact absurd ⟨b, by simpa using heq.symm⟩ hpre
      | cons c' a =>
        simp only [List.cons_append, List.cons.injEq] at heq
        have hlen := hfirst a b heq.2
        simpa using hlen

/-! ## The walk -/

theorem splitOnFrom_skip (sep piece skipped rest : List Char) :
    splitOnFrom sep skipped.length piece (skipped ++ rest) = splitOnFrom sep 0 piece rest := by
  induction skipped with
  | nil => rfl
  | cons c skipped ih => simpa [splitOnFrom] using ih

/-- A text without the separator is one piece. -/
theorem splitOnFrom_of_not_infix {sep : List Char} :
    ∀ {s : List Char} (piece : List Char), ¬ sep <:+: s →
      splitOnFrom sep 0 piece s = [piece.reverse ++ s]
  | [], piece, _ => by simp [splitOnFrom]
  | c :: s, piece, h => by
    have hpre : ¬ sep <+: c :: s := fun hp => h hp.isInfix
    have hs : ¬ sep <:+: s := fun hi => h (List.infix_cons_iff.mpr (.inr hi))
    rw [splitOnFrom, if_neg (by simpa using hpre), splitOnFrom_of_not_infix _ hs]
    simp

/-- The first piece ends at the first occurrence of the separator. -/
theorem splitOnFrom_of_firstOccurrence {sep : List Char} (hsep : sep ≠ []) :
    ∀ {piece : List Char} (front rest : List Char), FirstOccurrence sep piece rest →
      splitOnFrom sep 0 front (piece ++ sep ++ rest) =
        (front.reverse ++ piece) :: splitOnFrom sep 0 [] rest
  | [], front, rest, _ => by
    obtain ⟨c, sep', rfl⟩ := List.exists_cons_of_ne_nil hsep
    have hpre : (c :: sep').isPrefixOf (c :: (sep' ++ rest)) = true := by simp
    simp only [List.nil_append, List.cons_append, List.append_nil]
    rw [splitOnFrom, if_pos hpre]
    exact congrArg (front.reverse :: ·) (splitOnFrom_skip _ [] sep' rest)
  | c :: piece, front, rest, h => by
    have hpre := h.not_prefix
    simp only [List.cons_append] at hpre ⊢
    rw [splitOnFrom, if_neg (by simpa using hpre),
      splitOnFrom_of_firstOccurrence hsep (c :: front) rest h.tail]
    simp

/-! ## The two directions -/

/-- The walk finds pieces. -/
theorem pieces_splitOn (sep : List Char) : (s : List Char) → Pieces sep s (splitOn sep s)
  | s => by
    by_cases hsep : sep = []
    · rw [splitOn, if_pos (by simp [hsep])]
      exact .chars hsep
    · have hwalk : ∀ t, splitOn sep t = splitOnFrom sep 0 [] t := fun t => by
        rw [splitOn, if_neg (by simpa using hsep)]
      by_cases hin : sep <:+: s
      · obtain ⟨piece, rest, rfl, hfirst⟩ := exists_firstOccurrence hin
        have hlt : rest.length < (piece ++ sep ++ rest).length := by
          have hpos : 0 < sep.length := List.length_pos_iff.mpr hsep
          simp only [List.length_append]; omega
        rw [hwalk, splitOnFrom_of_firstOccurrence hsep [] rest hfirst, ← hwalk]
        exact .cut hsep hfirst (pieces_splitOn sep rest)
      · rw [hwalk, splitOnFrom_of_not_infix [] hin]
        exact .last hin
  termination_by s => s.length

/-- Pieces are found by the walk. -/
theorem Pieces.eq_splitOn {sep s : List Char} {ps : List (List Char)} (h : Pieces sep s ps) :
    ps = splitOn sep s := by
  induction h with
  | @last s hin =>
    have hsep : sep ≠ [] := by rintro rfl; exact hin (List.nil_infix)
    rw [splitOn, if_neg (by simpa using hsep), splitOnFrom_of_not_infix [] hin]
    rfl
  | @cut piece rest ps hsep hfirst _ ih =>
    rw [ih, splitOn, splitOn, if_neg (by simpa using hsep), if_neg (by simpa using hsep),
      splitOnFrom_of_firstOccurrence hsep [] rest hfirst]
    rfl
  | chars hsep => rw [splitOn, if_pos (by simp [hsep])]

/-- The pieces of a text are those into which it is split. -/
theorem pieces_iff {sep s : List Char} {ps : List (List Char)} :
    Pieces sep s ps ↔ ps = splitOn sep s :=
  ⟨Pieces.eq_splitOn, fun h => h ▸ pieces_splitOn sep s⟩

/-! ## Pieces around one character -/

/-- A separator of one character parts the pieces before it from those behind it. -/
theorem splitOnFrom_singleton {sep : Char} (piece s t : List Char) :
    splitOnFrom [sep] 0 piece (s ++ sep :: t) =
      splitOnFrom [sep] 0 piece s ++ splitOnFrom [sep] 0 [] t := by
  induction s generalizing piece with
  | nil => simp [splitOnFrom]
  | cons c s ih =>
    by_cases hc : c = sep
    · subst hc
      simp [splitOnFrom, ih]
    · simp [splitOnFrom, ih, Ne.symm hc]

/-- The pieces around one character are those before and those behind any of its occurrences. -/
theorem splitOn_append_cons (sep : Char) (s t : List Char) :
    splitOn [sep] (s ++ sep :: t) = splitOn [sep] s ++ splitOn [sep] t :=
  splitOnFrom_singleton [] s t

/-- A text without the separator is its only piece. -/
theorem splitOn_of_notMem {sep : Char} {s : List Char} (h : sep ∉ s) : splitOn [sep] s = [s] := by
  refine (Pieces.eq_splitOn (.last ?_)).symm
  rintro ⟨a, b, rfl⟩
  simp at h

theorem splitOn_ne_nil (sep : Char) (s : List Char) : splitOn [sep] s ≠ [] := by
  intro h
  have hpieces := pieces_splitOn [sep] s
  rw [h] at hpieces
  cases hpieces

/-- Pieces with the separator between them are the pieces of the whole. -/
theorem splitOn_intercalate {sep : Char} {ps : List (List Char)} (hne : ps ≠ [])
    (h : ∀ p ∈ ps, sep ∉ p) : splitOn [sep] ([sep].intercalate ps) = ps := by
  induction ps with
  | nil => exact absurd rfl hne
  | cons p ps ih =>
    have hp := splitOn_of_notMem (h p (by simp))
    cases ps with
    | nil => rw [List.intercalate_singleton, hp]
    | cons p' ps =>
      rw [List.intercalate_cons_cons, List.append_assoc, List.singleton_append,
        splitOn_append_cons, hp, ih (by simp) fun q hq => h q (by simp [hq])]
      rfl

/-! ## The first occurrence -/

/-- What stands behind the first occurrence of a separator is the end of the text. -/
theorem suffix_of_cutAt? {sep before after : List Char} :
    ∀ {s : List Char}, cutAt? sep s = some (before, after) → after <:+ s
  | [], h => by
    rw [cutAt?] at h
    split at h
    · cases h
      exact List.suffix_rfl
    · cases h
  | c :: s, h => by
    rw [cutAt?] at h
    split at h
    · next after' hafter =>
      cases h
      exact ⟨sep, (isPrefixOf?_eq_some_iff.mp hafter).symm⟩
    · obtain ⟨⟨before', after'⟩, hcut, heq⟩ := Option.map_eq_some_iff.mp h
      cases heq
      exact (suffix_of_cutAt? hcut).trans (List.suffix_cons c s)

end TestImpact.Text
