import TestImpact.Proofs.Diff.Rejection

/-!
# What patches are made of

Whatever a text holds, the patches that splitting gives hold some of its lines in order, and they
are made of hunks (`split_conserves_lines`). The splitter adds a line to a section only as a header
that it has read or behind one, so the lines of a section always begin with a header
(`Section.Begun`, `State.sound_step`); that no line tells about a file follows from what is kept at
all.
-/

namespace TestImpact.Diff

variable {l : List Char}

/-! ## Patches made of hunks -/

/-- How the lines begin that tell about a file. -/
def fileHeaders : List String :=
  ["diff --git ", "--- ", "+++ ", "rename to ", "new file mode", "deleted file mode",
    "Binary files ", "GIT binary patch"]

/-- The patch of a changed file is made of hunks and of nothing else. -/
structure HoldsHunks (c : FileChange) (patch : String) : Prop where
  nonempty : patch ≠ ""
  first : ∃ l ∈ c.patchLines.head?, IsMarkedHeader l
  starts : ∀ l ∈ c.patchLines, IsMarkedHeader l → ∃ n, StartsAt l n
  no_fileHeader : ∀ l ∈ c.patchLines, ∀ start ∈ fileHeaders, ¬ start.toList <+: l

theorem isKept_fileHeader {start : String} (hstart : start ∈ fileHeaders)
    (h : start.toList <+: l) : (Line.read l).isKept = false := by
  obtain ⟨rest, rfl⟩ := h
  simp only [fileHeaders, List.mem_cons, List.not_mem_nil, or_false] at hstart
  rcases hstart with rfl | rfl | rfl | rfl | rfl | rfl | rfl | rfl <;> rfl

/-- A kept line with the marks of a hunk header gives the start of its hunk. -/
theorem startsAt_of_isKept (h : (Line.read l).isKept = true) (hl : IsMarkedHeader l) :
    ∃ n, StartsAt l n := by
  have hread : Line.read l = .hunkHeader (isHunkHeader l) := read_eq_hunkHeader_iff.mpr ⟨hl, rfl⟩
  rw [← isHunkHeader_iff]
  cases hvalid : isHunkHeader l with
  | true => rfl
  | false =>
    rw [hread, hvalid] at h
    cases h

/-! ## Sections -/

/-- The lines of the hunks of a section begin with a header, and there are some if a hunk is being
read. -/
structure Section.Begun (s : Section) : Prop where
  header : ∀ l ∈ s.hunkLines.getLast?, IsMarkedHeader l
  inHunk : s.inHunk = true → s.hunkLines ≠ []
  feedless : ∀ l ∈ s.hunkLines, '\n' ∉ l

namespace Section.Begun

variable {s s' : Section}

/-- A section with the same lines that is in a hunk only if the other is. -/
theorem congr (h : s.Begun) (hlines : s'.hunkLines = s.hunkLines)
    (hin : s'.inHunk = true → s.inHunk = true) : s'.Begun where
  header := by
    rw [hlines]
    exact h.header
  inHunk := by
    rw [hlines]
    exact fun h' => h.inHunk (hin h')
  feedless := by
    rw [hlines]
    exact h.feedless

/-- A header can be added at any time, another line only behind a header. -/
theorem push (h : s.Begun) (hlines : s'.hunkLines = l :: s.hunkLines) (hl : '\n' ∉ l)
    (hfirst : s.hunkLines ≠ [] ∨ IsMarkedHeader l) : s'.Begun where
  header := by
    rw [hlines]
    cases hs : s.hunkLines with
    | nil =>
      intro l' hl'
      obtain rfl : l = l' := by simpa using hl'
      exact hfirst.resolve_left fun hne => hne hs
    | cons l' ls =>
      rw [List.getLast?_cons_cons, ← hs]
      exact h.header
  inHunk := by simp [hlines]
  feedless := by
    rw [hlines]
    exact List.forall_mem_cons.mpr ⟨hl, h.feedless⟩

/-- A section that has begun stays so: what is added is put after its first header. -/
theorem step (h : s.Begun) (hl : '\n' ∉ l) (hread : (Line.read l).begins = false)
    (hstep : s.step l (Line.read l) = .ok s') : s'.Begun := by
  rcases step_cases hread hstep with ⟨hsame, hin⟩ | ⟨hpush, hheader | ⟨-, hin⟩⟩
  · exact h.congr hsame hin
  · exact h.push hpush hl (.inr (read_eq_hunkHeader_iff.mp hheader).1)
  · exact h.push hpush hl (.inl (h.inHunk hin))

/-- The patch of a section begins with a header. -/
theorem first_finish? (h : s.Begun) {c : FileChange} {patch : String} (hc : s.finish? = some c)
    (hpatch : c.patch = some patch) : ∃ l ∈ c.patchLines.head?, IsMarkedHeader l := by
  obtain ⟨hne, hlines⟩ := patchLines_of_patch hc hpatch h.feedless
  rw [hlines, List.head?_reverse, List.getLast?_eq_some_getLast hne]
  exact ⟨_, rfl, h.header _ (List.getLast?_eq_some_getLast hne)⟩

end Section.Begun

/-! ## Whole diffs -/

/-- The sections read are such, and so are the patches of the files that have ended. -/
structure State.Sound (st : State) : Prop where
  current : ∀ s ∈ st.current, s.Begun
  files : ∀ c ∈ st.files, ∀ patch, c.patch = some patch →
    ∃ l ∈ c.patchLines.head?, IsMarkedHeader l

namespace State.Sound

variable {st st' : State}

/-- Each patch of a sound state begins with the header of a hunk. -/
theorem result (h : st.Sound) : ∀ c ∈ st.result, ∀ patch, c.patch = some patch →
    ∃ l ∈ c.patchLines.head?, IsMarkedHeader l := by
  intro c hc patch hpatch
  rcases List.mem_append.mp hc with hended | hlast
  · exact h.files c (List.mem_reverse.mp hended) patch hpatch
  · rw [Option.mem_toList, Option.bind_eq_some_iff] at hlast
    obtain ⟨s, hs, hfinish⟩ := hlast
    exact (h.current s hs).first_finish? hfinish hpatch

/-- A section that begins is sound, and the one before ends with its patch. -/
theorem begin (h : st.Sound) {next : Section} (hnext : next.Begun) : (st.begin next).Sound where
  current := by
    rintro s ⟨⟩
    exact hnext
  files := by
    intro c hc
    apply h.result c
    rw [State.result, List.mem_append, List.mem_reverse]
    exact (List.mem_append.mp hc).symm

/-- One line keeps the state sound. -/
theorem step (h : st.Sound) (hl : '\n' ∉ l) (hstep : st.Steps l st') : st'.Sound := by
  have hempty : ({} : Section).Begun := ⟨by simp, by simp, by simp⟩
  cases hstep with
  | sectionStart hread => exact h.begin (hempty.congr rfl id)
  | @bareStart path hread hin =>
    apply h.begin
    cases path with
    | none => exact hempty.congr rfl id
    | some path => exact hempty.congr rfl id
  | @oldFile path s hread hs hin =>
    refine ⟨?_, h.files⟩
    rintro s' ⟨⟩
    cases path with
    | none => exact (h.current s hs).congr rfl id
    | some path => exact (h.current s hs).congr rfl id
  | outside hread hs => exact h
  | @inside s s' hread hs hsection =>
    refine ⟨?_, h.files⟩
    rintro s'' ⟨⟩
    exact (h.current s hs).step hl hread hsection

theorem run {ls : List (List Char)} (h : st.Sound) (hls : ∀ l ∈ ls, '\n' ∉ l)
    (hrun : ls.foldlM State.step st = .ok st') : st'.Sound := by
  induction ls generalizing st with
  | nil =>
    cases hrun
    exact h
  | cons l ls ih =>
    rw [List.foldlM_cons, bind_eq_ok_iff] at hrun
    obtain ⟨mid, hfirst, hrest⟩ := hrun
    have hmid : mid.Sound := h.step (hls l List.mem_cons_self) (step_eq_ok_iff.mp hfirst)
    exact ih hmid (fun l' hl' => hls l' (List.mem_cons_of_mem l hl')) hrest

end State.Sound

/-- Every patch begins with a header. -/
theorem first_split {text : List Char} {files : List FileChange} (h : split text = .ok files) :
    ∀ c ∈ files, ∀ patch, c.patch = some patch → ∃ l ∈ c.patchLines.head?, IsMarkedHeader l := by
  obtain ⟨st, hrun, hresult⟩ := bind_eq_ok_iff.mp h
  obtain rfl := Except.ok.inj hresult
  have hstart : ({} : State).Sound := ⟨by simp, by simp⟩
  exact (hstart.run (Text.not_mem_lines _) hrun).result

/-- **Splitting conserves lines.** The patches of a diff hold some of its lines in order, and every
patch is made of hunks. -/
theorem split_conserves_lines {text : List Char} {files : List FileChange}
    (h : split text = .ok files) :
    (files.flatMap FileChange.patchLines).Sublist (Text.lines (unifyLineEnds text)) ∧
    ∀ c ∈ files, ∀ patch, c.patch = some patch → HoldsHunks c patch := by
  have hkept := patchLines_split h
  refine ⟨hkept.trans (keptLines_sublist _), ?_⟩
  intro c hc patch hpatch
  have hlines : ∀ l ∈ c.patchLines, (Line.read l).isKept = true := by
    intro l hl
    exact (List.mem_filter.mp (hkept.subset (List.mem_flatMap.mpr ⟨c, hc, hl⟩))).2
  have hfirst := first_split h c hc patch hpatch
  refine ⟨?_, hfirst, fun l hl => startsAt_of_isKept (hlines l hl), ?_⟩
  · -- the only line of the empty patch would be empty
    rintro rfl
    obtain ⟨l, hl, hmarked⟩ := hfirst
    have hempty : c.patchLines = [[]] := by
      rw [FileChange.patchLines, hpatch]
      rfl
    rw [hempty] at hl
    cases hl
    simp [IsMarkedHeader] at hmarked
  · intro l hl start hstart hprefix
    have hnot := isKept_fileHeader hstart hprefix
    rw [hlines l hl] at hnot
    cases hnot

/-- A diff in a mail, with lines around and within its section that belong to no hunk. -/
def mailedDiff : List Char :=
  ("Subject: a change\n\ndiff --git a/A.java b/A.java\nindex 12..34\n--- a/A.java\n" ++
    "+++ b/A.java\n@@ -1 +1,2 @@\n a();\r\n+b();\nnew file mode 100644\n-- \n2.40\n").toList

/-- What is left of it. -/
def mailedChange : FileChange where
  filename := "A.java"
  patch := "@@ -1 +1,2 @@\n a();\n+b();\n-- \n2.40"
  status := "added"

/-- A diff inside a mail: the signature below the hunk is kept with it, a header line in between is
not. -/
theorem split_conserves_lines_mailed :
    split mailedDiff = .ok [mailedChange] ∧
    ([mailedChange].flatMap FileChange.patchLines).Sublist
      (Text.lines (unifyLineEnds mailedDiff)) ∧
    ∀ c ∈ [mailedChange], ∀ patch, c.patch = some patch → HoldsHunks c patch := by
  have hsplit : split mailedDiff = .ok [mailedChange] := by decide +kernel
  exact ⟨hsplit, split_conserves_lines hsplit⟩

end TestImpact.Diff
