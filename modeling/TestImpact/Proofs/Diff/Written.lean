import TestImpact.Diff.Split
import TestImpact.Proofs.Text.Lines

/-!
# Diffs as they are written

The other side of splitting: the section of a file as a diff writes it, with the headers of its
kind and with its hunks. A section carries the proofs that its paths and lines are such as a diff
can hold, so every value of these types has a text, and that text has the lines it was written with
(`lines_written`).
-/

namespace TestImpact.Diff

/-! ## Hunks -/

/-- Whether a line begins with one of the markers of a hunk. -/
def IsMarked (l : List Char) : Prop := ∃ c ∈ [' ', '+', '-', '\\'], ∃ text, l = c :: text

/-- One of the two ranges in the header of a hunk. -/
def range (sign : Char) (start count : Nat) : List Char :=
  sign :: Nat.toDigits 10 start ++ ',' :: Nat.toDigits 10 count

/-- A hunk. -/
structure Hunk where
  oldStart : Nat
  oldCount : Nat
  newStart : Nat
  newCount : Nat
  /-- What follows the ranges, with the blank before it. -/
  heading : List Char
  /-- The lines after the header, with their markers. -/
  body : List (List Char)
  newStart_lt : newStart < Decimal.bound32
  heading_oneLine : Text.OneLine heading
  body_oneLine : ∀ l ∈ body, Text.OneLine l
  body_marked : ∀ l ∈ body, IsMarked l

namespace Hunk

/-- The header of the hunk. -/
def header (h : Hunk) : List Char :=
  "@@ ".toList ++ range '-' h.oldStart h.oldCount ++ ' ' :: range '+' h.newStart h.newCount ++
    " @@".toList ++ h.heading

/-- The lines of the hunk. -/
def lines (h : Hunk) : List (List Char) := h.header :: h.body

/-- Whether the counts in the header are right. -/
def Counted (h : Hunk) : Prop :=
  h.oldCount = h.body.countP (fun l => l.head? = some ' ' ∨ l.head? = some '-') ∧
    h.newCount = h.body.countP fun l => l.head? = some ' ' ∨ l.head? = some '+'

end Hunk

/-! ## Sections -/

/-- What has been done to a file. The lines that tell its mode may go on in any way. -/
inductive FileKind
  | modified
  | added (mode : List Char)
  | deleted (mode : List Char)
  | renamed

/-- The name that a change of this kind has in reports. -/
def FileKind.status : FileKind → String
  | .modified => "modified"
  | .added _ => "added"
  | .deleted _ => "removed"
  | .renamed => "renamed"

/-- The section of a file. -/
structure FileSection where
  path : List Char
  oldPath : List Char
  kind : FileKind
  hunks : List Hunk
  path_ne : path ≠ []
  path_unbroken : Text.Unbroken path
  path_slashed : '\\' ∉ path
  path_not_here : ¬ "./".toList <+: path
  oldPath_unbroken : Text.Unbroken oldPath
  mode_oneLine : ∀ mode, kind = .added mode ∨ kind = .deleted mode → Text.OneLine mode
  /-- The path of a renamed file is written without a side. -/
  renamed_sideless : kind = .renamed → ¬ "a/".toList <+: path ∧ ¬ "b/".toList <+: path

namespace FileSection

/-- The first line of the section. -/
def start (f : FileSection) : List Char :=
  "diff --git ".toList ++ ("a/".toList ++ f.oldPath ++ ' ' :: ("b/".toList ++ f.path))

/-- The line that tells the kind, if there is one. -/
def kindLines (f : FileSection) : List (List Char) :=
  match f.kind with
  | .modified => []
  | .added mode => ["new file mode".toList ++ mode]
  | .deleted mode => ["deleted file mode".toList ++ mode]
  | .renamed => ["rename to ".toList ++ f.path]

/-- The line for the old file. -/
def oldLine (f : FileSection) : List Char :=
  match f.kind with
  | .added _ => "--- /dev/null".toList
  | _ => "--- ".toList ++ ("a/".toList ++ f.oldPath)

/-- The line for the new file. -/
def newLine (f : FileSection) : List Char :=
  match f.kind with
  | .deleted _ => "+++ /dev/null".toList
  | _ => "+++ ".toList ++ ("b/".toList ++ f.path)

/-- The lines before the hunks. -/
def headers (f : FileSection) : List (List Char) :=
  f.start :: f.kindLines ++ [f.oldLine, f.newLine]

/-- The lines of the hunks. -/
def hunkLines (f : FileSection) : List (List Char) := f.hunks.flatMap Hunk.lines

/-- The lines of the section. -/
def lines (f : FileSection) : List (List Char) := f.headers ++ f.hunkLines

/-- The changed file that the section tells of. -/
def change (f : FileSection) : FileChange where
  filename := String.ofList f.path
  patch := match f.hunks with
    | [] => none
    | _ => some (String.ofList (['\n'].intercalate f.hunkLines))
  status := some f.kind.status

end FileSection

/-- A diff, written line by line. -/
def written (sections : List FileSection) : List Char :=
  Text.unlines (sections.flatMap FileSection.lines)

/-! ## The lines of a section are lines -/

theorem toDigits_unbroken (n : Nat) : Text.Unbroken (Nat.toDigits 10 n) :=
  fun _ hc => Text.isBlank_of_isDigit (Nat.isDigit_of_mem_toDigits (by decide) (by decide) hc)

theorem range_unbroken {sign : Char} (hsign : Text.isBlank sign = false) (start count : Nat) :
    Text.Unbroken (range sign start count) := by
  rw [range, List.cons_append, Text.unbroken_cons, Text.unbroken_append, Text.unbroken_cons]
  exact ⟨hsign, toDigits_unbroken _, by decide, toDigits_unbroken _⟩

theorem Hunk.lines_oneLine (h : Hunk) : ∀ l ∈ h.lines, Text.OneLine l := by
  intro l hl
  rcases List.mem_cons.mp hl with rfl | hl
  · have hold : Text.OneLine (range '-' h.oldStart h.oldCount) :=
      (range_unbroken (by decide) _ _).oneLine
    have hnew : Text.OneLine (' ' :: range '+' h.newStart h.newCount) :=
      Text.oneLine_cons.mpr ⟨by decide, (range_unbroken (by decide) _ _).oneLine⟩
    rw [Hunk.header, Text.oneLine_append, Text.oneLine_append, Text.oneLine_append,
      Text.oneLine_append]
    exact ⟨⟨⟨⟨by decide, hold⟩, hnew⟩, by decide⟩, h.heading_oneLine⟩
  · exact h.body_oneLine l hl

theorem FileSection.hunkLines_oneLine (f : FileSection) : ∀ l ∈ f.hunkLines, Text.OneLine l := by
  intro l hl
  obtain ⟨h, -, hl⟩ := List.mem_flatMap.mp hl
  exact h.lines_oneLine l hl

/-- The line for two paths with their sides is a line if the paths lie within one. -/
theorem sides_oneLine {old new : List Char} (hold : Text.OneLine old) (hnew : Text.OneLine new) :
    Text.OneLine ("diff --git ".toList ++ ("a/".toList ++ old ++ ' ' :: ("b/".toList ++ new))) := by
  have holdSide : Text.OneLine ("a/".toList ++ old) := Text.oneLine_append.mpr ⟨by decide, hold⟩
  have hnewSide : Text.OneLine ("b/".toList ++ new) := Text.oneLine_append.mpr ⟨by decide, hnew⟩
  have hsides : Text.OneLine ("a/".toList ++ old ++ ' ' :: ("b/".toList ++ new)) :=
    Text.oneLine_append.mpr ⟨holdSide, Text.oneLine_cons.mpr ⟨by decide, hnewSide⟩⟩
  exact Text.oneLine_append.mpr ⟨by decide, hsides⟩

theorem FileSection.headers_oneLine (f : FileSection) : ∀ l ∈ f.headers, Text.OneLine l := by
  have hpath := f.path_unbroken.oneLine
  have hold := f.oldPath_unbroken.oneLine
  have holdSide : Text.OneLine ("a/".toList ++ f.oldPath) :=
    Text.oneLine_append.mpr ⟨by decide, hold⟩
  have hnewSide : Text.OneLine ("b/".toList ++ f.path) :=
    Text.oneLine_append.mpr ⟨by decide, hpath⟩
  have hstart : Text.OneLine f.start := sides_oneLine hold hpath
  have holdLine : Text.OneLine ("--- ".toList ++ ("a/".toList ++ f.oldPath)) :=
    Text.oneLine_append.mpr ⟨by decide, holdSide⟩
  have hnewLine : Text.OneLine ("+++ ".toList ++ ("b/".toList ++ f.path)) :=
    Text.oneLine_append.mpr ⟨by decide, hnewSide⟩
  intro l hl
  simp only [FileSection.headers, FileSection.kindLines, FileSection.oldLine,
    FileSection.newLine] at hl
  cases hkind : f.kind with
  | modified =>
    simp only [hkind, List.cons_append, List.nil_append, List.mem_cons, List.not_mem_nil,
      or_false] at hl
    rcases hl with rfl | rfl | rfl <;> assumption
  | added mode =>
    have hmode := f.mode_oneLine mode (.inl hkind)
    simp only [hkind, List.cons_append, List.nil_append, List.mem_cons, List.not_mem_nil,
      or_false] at hl
    rcases hl with rfl | rfl | rfl | rfl
    · exact hstart
    · exact Text.oneLine_append.mpr ⟨by decide, hmode⟩
    · decide
    · exact hnewLine
  | deleted mode =>
    have hmode := f.mode_oneLine mode (.inr hkind)
    simp only [hkind, List.cons_append, List.nil_append, List.mem_cons, List.not_mem_nil,
      or_false] at hl
    rcases hl with rfl | rfl | rfl | rfl
    · exact hstart
    · exact Text.oneLine_append.mpr ⟨by decide, hmode⟩
    · exact holdLine
    · decide
  | renamed =>
    simp only [hkind, List.cons_append, List.nil_append, List.mem_cons, List.not_mem_nil,
      or_false] at hl
    rcases hl with rfl | rfl | rfl | rfl
    · exact hstart
    · exact Text.oneLine_append.mpr ⟨by decide, hpath⟩
    · exact holdLine
    · exact hnewLine

/-- Written lines are read as they are, for their ends need not be unified. -/
theorem lines_unifyLineEnds_unlines {ls : List (List Char)} (h : ∀ l ∈ ls, Text.OneLine l) :
    Text.lines (unifyLineEnds (Text.unlines ls)) = ls := by
  have hunified : ∀ s : List Char, '\r' ∉ s → unifyLineEnds s = s := by
    intro s hs
    induction s with
    | nil => rfl
    | cons c s ih =>
      have hc : c ≠ '\r' := fun hc => hs (by simp [hc])
      rw [unifyLineEnds, ih fun h => hs (by simp [h])]
      exact fun _ h => absurd h hc
  rw [hunified _ (Text.not_mem_unlines h), Text.lines_unlines h]

/-- A written diff is read line by line as it was written. -/
theorem lines_written (sections : List FileSection) :
    Text.lines (unifyLineEnds (written sections)) = sections.flatMap FileSection.lines := by
  apply lines_unifyLineEnds_unlines
  intro l hl
  obtain ⟨f, -, hl⟩ := List.mem_flatMap.mp hl
  rcases List.mem_append.mp hl with hl | hl
  · exact f.headers_oneLine l hl
  · exact f.hunkLines_oneLine l hl

end TestImpact.Diff
