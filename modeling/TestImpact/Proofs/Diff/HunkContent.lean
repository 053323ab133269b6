import Mathlib.Data.List.Forall2
import TestImpact.Patch.Line
import TestImpact.Proofs.Diff.RoundTrip

/-!
# What hunks may hold

The text behind a marker is the text of a file, so it should not matter what it is: the splitter
should keep every line of a hunk, and the reader of patches should go by the marker alone. Both
count no lines, though, and go by how a line begins. A removed line whose text begins with two
dashes and a blank is taken for the header of a file by both of them, and so is an added line whose
text begins with two plus signs and a blank (`hunks_opaque_iff`).
-/

namespace TestImpact.Diff

/-! ## Two promises -/

/-- A changed file with the path and the status of a section and with all lines of its hunks. -/
structure FileSection.KeptIn (f : FileSection) (c : FileChange) : Prop where
  filename : c.filename = String.ofList f.path
  status : c.status = some f.kind.status
  lines : f.hunkLines.Sublist c.patchLines

/-- Splitting gives one file for each section, with all lines of its hunks. -/
def KeepsHunks (sections : List FileSection) : Prop :=
  ∃ files, split (written sections) = .ok files ∧ List.Forall₂ FileSection.KeptIn sections files

/-- What a line with a marker stands for. -/
def markedKind : Char → Patch.Kind
  | '+' => .added
  | '-' => .removed
  | _ => .context

/-- Every line of a hunk stands for what its marker says. -/
def GoesByMarkers (sections : List FileSection) : Prop :=
  ∀ f ∈ sections, ∀ h ∈ f.hunks, ∀ marker ∈ [' ', '+', '-'], ∀ text, marker :: text ∈ h.body →
    Patch.Line.ofText (marker :: text) = ⟨markedKind marker, text⟩

/-! ## Splitting -/

/-- The patch of a section is read back as the lines of its hunks. -/
theorem FileSection.patchLines_change (f : FileSection) : f.change.patchLines = f.hunkLines := by
  have hlines : ∀ l ∈ f.hunkLines, '\n' ∉ l := fun l hl => (f.hunkLines_oneLine l hl).1
  cases hhunks : f.hunks with
  | nil => simp [FileChange.patchLines, change, hunkLines, hhunks]
  | cons h hs =>
    have hne : f.hunkLines ≠ [] := by simp [hunkLines, hhunks, Hunk.lines]
    simp [FileChange.patchLines, change, hhunks, Text.splitOn_intercalate hne hlines]

theorem FileSection.keptIn_change (f : FileSection) : f.KeptIn f.change :=
  ⟨rfl, rfl, f.patchLines_change ▸ List.Sublist.refl _⟩

/-- No header of a section is kept. -/
theorem FileSection.keptLines_headers (f : FileSection) : keptLines f.headers = [] := by
  have hkind : keptLines f.kindLines = [] := by
    cases hkind : f.kind with
    | renamed =>
      simp only [kindLines, hkind]
      exact keptLines_singleton (f.read_renameLine hkind) rfl
    | _ =>
      simp only [kindLines, hkind]
      rfl
  rw [headers, List.cons_append, keptLines_cons, keptLines_append, hkind,
    keptLines_cons f.oldLine, keptLines_singleton f.read_start rfl,
    keptLines_singleton f.read_oldLine rfl, keptLines_singleton f.read_newLine rfl]
  rfl

/-- The lines of a written diff that can be kept are lines of its hunks. -/
theorem keptLines_lines (sections : List FileSection) :
    keptLines (sections.flatMap FileSection.lines) =
      keptLines (sections.flatMap FileSection.hunkLines) := by
  induction sections with
  | nil => rfl
  | cons f sections ih =>
    rw [List.flatMap_cons, List.flatMap_cons, keptLines_append, keptLines_append, ih,
      FileSection.lines, keptLines_append, f.keptLines_headers, List.nil_append]

/-- Where each record keeps the hunks of its section, their lines stand in the patches in order. -/
theorem patchLines_of_keptIn {sections : List FileSection} {files : List FileChange}
    (h : List.Forall₂ FileSection.KeptIn sections files) :
    (sections.flatMap FileSection.hunkLines).Sublist (files.flatMap FileChange.patchLines) := by
  induction h with
  | nil => exact List.Sublist.refl _
  | cons hkept _ ih =>
    rw [List.flatMap_cons, List.flatMap_cons]
    exact hkept.lines.append ih

/-- The splitter keeps every line of every hunk if and only if none looks like the header of a
file. One line that does is lost wherever the others go, for a run never keeps a line twice. -/
theorem keepsHunks_iff (sections : List FileSection) : KeepsHunks sections ↔
    ∀ f ∈ sections, ∀ h ∈ f.hunks, ∀ l ∈ h.body, ¬ LooksLikeHeader l := by
  constructor
  · rintro ⟨files, hsplit, hfiles⟩ f hf h hh l hl hheader
    have hkept := patchLines_split hsplit
    rw [lines_written, keptLines_lines] at hkept
    -- all lines of hunks stand in the patches, and the patches hold only some of those that are
    -- kept, so none of them is left out
    have hall : keptLines (sections.flatMap FileSection.hunkLines) =
        sections.flatMap FileSection.hunkLines :=
      (keptLines_sublist _).eq_of_length_le
        ((patchLines_of_keptIn hfiles).trans hkept).length_le
    have hmem : l ∈ sections.flatMap FileSection.hunkLines :=
      List.mem_flatMap.mpr ⟨f, hf, List.mem_flatMap.mpr ⟨h, hh, List.mem_cons_of_mem _ hl⟩⟩
    have hread : (Line.read l).isKept = true := List.filter_eq_self.mp hall l hmem
    rcases read_of_looksLikeHeader hheader with ⟨path, hpath⟩ | ⟨path, hpath⟩ <;>
      simp [hpath, Line.isKept] at hread
  · intro hheader
    obtain ⟨st, hrun, hresult⟩ := run_sections hheader {}
    refine ⟨sections.map FileSection.change, ?_, ?_⟩
    · rw [split, lines_written, hrun]
      exact congrArg Except.ok hresult
    · rw [List.forall₂_map_right_iff, List.forall₂_same]
      exact fun f _ => f.keptIn_change

/-! ## Reading -/

/-- A line of a hunk is read by its marker if and only if it is not taken for a header. -/
theorem ofText_eq_iff {marker : Char} (hmarker : marker ∈ [' ', '+', '-']) {text : List Char}
    (hline : Text.OneLine (marker :: text)) :
    Patch.Line.ofText (marker :: text) = ⟨markedKind marker, text⟩ ↔
      Patch.isFileHeader (marker :: text) = false := by
  have hreturn : (marker :: text).getLast? ≠ some '\r' :=
    fun hlast => hline.2 (List.mem_of_getLast? hlast)
  rw [Patch.Line.ofText, if_neg hreturn]
  simp only [List.mem_cons, List.not_mem_nil, or_false] at hmarker
  cases hheader : Patch.isFileHeader (marker :: text) with
  | true =>
    rcases hmarker with rfl | rfl | rfl <;> simp [Patch.Line.read, hheader, markedKind]
  | false =>
    rcases hmarker with rfl | rfl | rfl <;> simp [Patch.Line.read, hheader, markedKind]

theorem isFileHeader_of_looksLikeHeader {l : List Char} (h : LooksLikeHeader l) :
    Patch.isFileHeader l = true := by
  rcases h with ⟨text, rfl⟩ | ⟨text, rfl⟩ <;> simp [Patch.isFileHeader]

/-- Only the markers of added and of removed lines begin a header. -/
theorem isFileHeader_unmarked {c : Char} {text : List Char} (hadded : c ≠ '+')
    (hremoved : c ≠ '-') : Patch.isFileHeader (c :: text) = false := by
  simp [Patch.isFileHeader, List.isPrefixOf, hadded, hremoved, Ne.symm hadded, Ne.symm hremoved]

/-- Sections go by their markers just where no line of a hunk looks like a file header. -/
theorem goesByMarkers_iff (sections : List FileSection) : GoesByMarkers sections ↔
    ∀ f ∈ sections, ∀ h ∈ f.hunks, ∀ l ∈ h.body, Patch.isFileHeader l = false := by
  constructor
  · intro hmarkers f hf h hh l hl
    obtain ⟨c, hc, text, rfl⟩ := h.body_marked l hl
    by_cases hslash : c = '\\'
    · exact isFileHeader_unmarked (by simp [hslash]) (by simp [hslash])
    · have hc : c ∈ [' ', '+', '-'] := by simpa [hslash] using hc
      exact (ofText_eq_iff hc (h.body_oneLine _ hl)).mp (hmarkers f hf h hh c hc text hl)
  · intro hheader f hf h hh marker hmarker text hl
    exact (ofText_eq_iff hmarker (h.body_oneLine _ hl)).mpr (hheader f hf h hh _ hl)

/-! ## Both -/

/-- **When hunks are opaque**: the splitter keeps every line of every hunk exactly if none of them
begins like the header of a file, and the lines go by their markers besides exactly if none of them
is such a header to the reader of patches, which takes a bare `---` or `+++` for one too. -/
theorem hunks_opaque_iff (sections : List FileSection) :
    (KeepsHunks sections ↔ ∀ f ∈ sections, ∀ h ∈ f.hunks, ∀ l ∈ h.body, ¬ LooksLikeHeader l) ∧
      (KeepsHunks sections ∧ GoesByMarkers sections ↔
        ∀ f ∈ sections, ∀ h ∈ f.hunks, ∀ l ∈ h.body, Patch.isFileHeader l = false) := by
  refine ⟨keepsHunks_iff sections, ?_⟩
  rw [keepsHunks_iff, goesByMarkers_iff]
  refine ⟨And.right, fun hheader => ⟨fun f hf h hh l hl hlooks => ?_, hheader⟩⟩
  exact absurd (isFileHeader_of_looksLikeHeader hlooks) (by simp [hheader f hf h hh l hl])

/-- A query that loses its first line, which is a comment. -/
def droppedComment : FileSection where
  path := "q.sql".toList
  oldPath := "q.sql".toList
  kind := .modified
  hunks := [{
    oldStart := 1, oldCount := 2, newStart := 1, newCount := 1
    heading := []
    body := ["--- drop the table".toList, " select 1".toList]
    newStart_lt := by decide
    heading_oneLine := by decide
    body_oneLine := by decide
    body_marked := by simp [IsMarked] }]
  path_ne := by decide
  path_unbroken := by decide
  path_slashed := by decide
  path_not_here := by decide
  oldPath_unbroken := by decide
  mode_oneLine := by simp
  renamed_sideless := fun h => nomatch h

/-- Hunks are not opaque in general, not even if their counts are right. -/
theorem not_keepsHunks_of_counted : ¬ ∀ sections : List FileSection,
    (∀ f ∈ sections, ∀ h ∈ f.hunks, h.Counted) →
      KeepsHunks sections ∧ GoesByMarkers sections := by
  intro hclaim
  have hcounted : ∀ f ∈ [droppedComment], ∀ h ∈ f.hunks, h.Counted := by
    simp [droppedComment, Hunk.Counted]
  have hkeeps := (keepsHunks_iff _).mp (hclaim [droppedComment] hcounted).1
  have hcomment : "--- drop the table".toList ∈ ["--- drop the table".toList, " select 1".toList] :=
    List.mem_cons_self
  exact hkeeps droppedComment List.mem_cons_self _ List.mem_cons_self _ hcomment (by decide)

end TestImpact.Diff
