import TestImpact.Diff.Line
import TestImpact.Proofs.Text.Affix
import TestImpact.Proofs.Text.Lines

/-!
# Headers of hunks

The header of a hunk is written `@@ -A,B +C,D @@`, where both counts may be missing and any text may
follow (`IsHeader`). The splitter does not read it by that form: of the words behind the first one
it takes the first that begins with a plus sign, wherever it stands, and asks for a number before
its comma (`StartsAt`, `isHunkHeader_iff`). So it knows where the hunk of every well-formed header
begins (`IsHeader.startsAt`), and it accepts other lines besides.
-/

namespace TestImpact.Diff

variable {line : List Char} {n : Nat}

/-! ## What the splitter looks for -/

/-- The first word behind the marker that begins with a plus sign has the number `n`, of 32 bits,
before its comma. -/
def StartsAt (line : List Char) (n : Nat) : Prop :=
  ∃ marker before range after,
    Text.words Text.isBlank line = marker :: (before ++ ('+' :: range) :: after) ∧
    (∀ w ∈ before, ¬ ['+'] <+: w) ∧
    Decimal.natural? Decimal.bound32 (range.takeWhile (· ≠ ',')) = some n

/-- The range is that of the first word with a plus sign. -/
theorem findSome?_plus_iff {words : List (List Char)} {range : List Char} :
    words.findSome? (List.isPrefixOf? ['+']) = some range ↔
      ∃ before after, words = before ++ ('+' :: range) :: after ∧ ∀ w ∈ before, ¬ ['+'] <+: w := by
  rw [List.findSome?_eq_some_iff]
  constructor
  · rintro ⟨before, word, after, rfl, hword, hbefore⟩
    obtain rfl : word = '+' :: range := Text.isPrefixOf?_eq_some_iff.mp hword
    exact ⟨before, after, rfl, fun w hw => Text.isPrefixOf?_eq_none_iff.mp (hbefore w hw)⟩
  · rintro ⟨before, after, rfl, hbefore⟩
    refine ⟨before, '+' :: range, after, rfl, Text.isPrefixOf?_append ['+'] range, ?_⟩
    exact fun w hw => Text.isPrefixOf?_eq_none_iff.mpr (hbefore w hw)

/-- A line passes for a header if the splitter finds where the hunk begins. -/
theorem isHunkHeader_iff : isHunkHeader line = true ↔ ∃ n, StartsAt line n := by
  unfold isHunkHeader
  constructor
  · intro h
    dsimp only at h
    split at h
    · cases h
    · next range hrange =>
      obtain ⟨n, hn⟩ := Option.isSome_iff_exists.mp h
      obtain ⟨before, after, hwords, hbefore⟩ := findSome?_plus_iff.mp hrange
      cases hall : Text.words Text.isBlank line with
      | nil => simp [hall] at hwords
      | cons marker words =>
        rw [hall, List.drop_one, List.tail_cons] at hwords
        exact ⟨n, marker, before, range, after, by rw [hall, hwords], hbefore, hn⟩
  · rintro ⟨n, marker, before, range, after, hwords, hbefore, hn⟩
    have hrange : ((Text.words Text.isBlank line).drop 1).findSome? (List.isPrefixOf? ['+']) =
        some range := by
      rw [findSome?_plus_iff, hwords]
      exact ⟨before, after, rfl, hbefore⟩
    simp only [hrange, hn, Option.isSome_some]

/-- Behind a range of the old file the range of the new file is found, whatever follows it. -/
theorem startsAt_of_ranges {old new : List Char} (hold : Text.Unbroken old)
    (hnew : Text.Unbroken new)
    (hn : Decimal.natural? Decimal.bound32 (new.takeWhile (· ≠ ',')) = some n) (rest : List Char) :
    StartsAt ("@@ -".toList ++ old ++ " +".toList ++ new ++ ' ' :: rest) n := by
  have hlayout : "@@ -".toList ++ old ++ " +".toList ++ new ++ ' ' :: rest =
      "@@".toList ++ ' ' :: (('-' :: old) ++ ' ' :: (('+' :: new) ++ ' ' :: rest)) := by
    simp
  have hmarker : Text.Unbroken "@@".toList := by decide
  have holdWord : Text.Unbroken ('-' :: old) := Text.unbroken_cons.mpr ⟨by decide, hold⟩
  have hnewWord : Text.Unbroken ('+' :: new) := Text.unbroken_cons.mpr ⟨by decide, hnew⟩
  have hwords : Text.words Text.isBlank
      ("@@ -".toList ++ old ++ " +".toList ++ new ++ ' ' :: rest) =
      "@@".toList :: (['-' :: old] ++ ('+' :: new) :: Text.words Text.isBlank rest) := by
    rw [hlayout, Text.words_append (by simp) hmarker (by decide),
      Text.words_append (by simp) holdWord (by decide),
      Text.words_append (by simp) hnewWord (by decide)]
    rfl
  refine ⟨_, _, _, _, hwords, ?_, hn⟩
  -- the range of the old file begins with a dash, so the search passes over it
  intro w hw
  rw [List.mem_singleton.mp hw]
  simp

/-! ## The documented form -/

/-- The text is a number of 32 bits in decimal digits. -/
def IsNumber (s : List Char) (n : Nat) : Prop := Decimal.digits? s = some n ∧ n < Decimal.bound32

/-- A range of lines: the number of its first line and, behind a comma, how many lines it has if
that is not one. -/
inductive IsRange : List Char → Nat → Prop
  | bare {s n} : IsNumber s n → IsRange s n
  | counted {s n t k} : IsNumber s n → IsNumber t k → IsRange (s ++ ',' :: t) n

/-- The header of a hunk that begins at line `n` of the new file, `@@ -A,B +C,D @@` with or without
the counts, and any text after it. -/
def IsHeader (line : List Char) (n : Nat) : Prop :=
  ∃ old m new context, IsRange old m ∧ IsRange new n ∧
    line = "@@ -".toList ++ old ++ " +".toList ++ new ++ " @@".toList ++ context

theorem IsNumber.isDigit {s : List Char} (h : IsNumber s n) : ∀ c ∈ s, c.isDigit = true := by
  have hdigits := h.1
  unfold Decimal.digits? at hdigits
  split at hdigits
  · cases hdigits
  · next hs =>
    rw [Bool.or_eq_true, not_or, Bool.not_eq_true', Bool.not_eq_false] at hs
    exact List.all_eq_true.mp hs.2

theorem IsNumber.natural? {s : List Char} (h : IsNumber s n) :
    Decimal.natural? Decimal.bound32 s = some n := by
  have hsign : ∀ ds, s ≠ '+' :: ds := by
    rintro ds rfl
    exact absurd (h.isDigit '+' List.mem_cons_self) (by decide)
  simp [Decimal.natural?, h.1, h.2]

theorem IsNumber.unbroken {s : List Char} (h : IsNumber s n) : Text.Unbroken s :=
  fun c hc => Text.isBlank_of_isDigit (h.isDigit c hc)

theorem IsNumber.takeWhile_eq {s : List Char} (h : IsNumber s n) (rest : List Char) :
    (s ++ rest).takeWhile (· ≠ ',') = s ++ rest.takeWhile (· ≠ ',') := by
  apply List.takeWhile_append_of_pos
  intro c hc
  exact decide_eq_true fun heq => absurd (heq ▸ h.isDigit c hc) (by decide)

theorem IsRange.unbroken {s : List Char} (h : IsRange s n) : Text.Unbroken s := by
  cases h with
  | bare hs => exact hs.unbroken
  | counted hs ht =>
    rw [Text.unbroken_append, Text.unbroken_cons]
    exact ⟨hs.unbroken, by decide, ht.unbroken⟩

/-- The number of a range stands before its comma. -/
theorem IsRange.natural? {s : List Char} (h : IsRange s n) :
    Decimal.natural? Decimal.bound32 (s.takeWhile (· ≠ ',')) = some n := by
  cases h with
  | bare hs =>
    have htake := hs.takeWhile_eq []
    rw [List.append_nil] at htake
    rw [htake, List.takeWhile_nil, List.append_nil]
    exact hs.natural?
  | counted hs ht =>
    rw [hs.takeWhile_eq, List.takeWhile_cons_of_neg (by simp), List.append_nil]
    exact hs.natural?

/-- The splitter knows where the hunk of a well-formed header begins. -/
theorem IsHeader.startsAt (h : IsHeader line n) : StartsAt line n := by
  obtain ⟨old, m, new, context, hold, hnew, rfl⟩ := h
  have hmarker : " @@".toList ++ context = ' ' :: ("@@".toList ++ context) := rfl
  rw [List.append_assoc _ " @@".toList, hmarker]
  exact startsAt_of_ranges hold.unbroken hnew.unbroken hnew.natural? _

end TestImpact.Diff
