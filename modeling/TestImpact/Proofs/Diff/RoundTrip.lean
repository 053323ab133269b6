import TestImpact.Proofs.Diff.Conservation
import TestImpact.Proofs.Diff.Reading

/-!
# Splitting undoes writing

A written diff is split into the changed files that its sections tell of, in order
(`split_written`). The headers of a section leave the splitter with what they say
(`run_headers`), whatever it has read before; each hunk then adds its lines (`run_hunks`).
-/

namespace TestImpact.Diff

/-! ## Steps within a section -/

namespace State

theorem run_cons {st st' : State} {l : List Char} (h : st.step l = .ok st')
    (ls : List (List Char)) : (l :: ls).foldlM step st = ls.foldlM step st' := by
  rw [List.foldlM_cons, h]
  rfl

/-- A run goes on from where its first lines lead. -/
theorem run_append {st st' : State} {ls : List (List Char)} (h : ls.foldlM step st = .ok st')
    (ls' : List (List Char)) : (ls ++ ls').foldlM step st = ls'.foldlM step st' := by
  rw [List.foldlM_append, h]
  rfl

variable (st : State) {l : List Char}

theorem step_sectionStart {path : Option String} (hread : Line.read l = .sectionStart path) :
    st.step l = .ok (st.begin { path := path }) := by
  simp [step, hread]

theorem step_oldFile {s : Section} {path : Option String} (hread : Line.read l = .oldFile path)
    (hs : s.inHunk = false) : (st.begin s).step l = .ok (st.begin (s.withOldFile path)) := by
  simp [step, hread, begin, hs]

theorem step_newFile (s : Section) {path : Option String} (hread : Line.read l = .newFile path) :
    (st.begin s).step l = .ok (st.begin (s.withNewFile path)) := by
  simp only [step, hread, begin]
  rfl

theorem step_hunkHeader (s : Section) (hread : Line.read l = .hunkHeader true) :
    (st.begin s).step l = .ok (st.begin (Section.push { s with inHunk := true } l)) := by
  simp only [step, hread, begin]
  rfl

theorem step_plain {s : Section} (hread : Line.read l = .plain) (hs : s.inHunk = true) :
    (st.begin s).step l = .ok (st.begin (s.push l)) := by
  simp only [step, hread, begin, Section.step, hs]
  rfl

end State

/-! ## Headers -/

/-- What has been read of a section after its headers. -/
def FileSection.opened (f : FileSection) : Section :=
  let s : Section := { path := some (String.ofList f.path), oldPath := f.oldPath? }
  match f.kind with
  | .modified => s
  | .added _ => { s with isNew := true }
  | .deleted _ => { s with isDeleted := true }
  | .renamed => { s with renamedTo := some (String.ofList f.path) }

/-- The line that tells the kind says the same as the section it leads to. -/
theorem FileSection.run_kindLines (f : FileSection) (st : State) :
    ∃ s : Section, s.inHunk = false ∧
      (s.withOldFile f.oldPath?).withNewFile f.newPath? = f.opened ∧
      f.kindLines.foldlM State.step (st.begin { path := some (String.ofList f.path) }) =
        .ok (st.begin s) := by
  cases hkind : f.kind with
  | modified =>
    refine ⟨{ path := some (String.ofList f.path) }, rfl, ?_, ?_⟩
    · simp [opened, oldPath?, newPath?, hkind, Section.withOldFile, Section.withNewFile]
    · simp only [kindLines, hkind]
      rfl
  | added mode =>
    -- the absent old file will say once more that the file is new
    refine ⟨{ path := some (String.ofList f.path), isNew := true }, rfl, ?_, ?_⟩
    · simp [opened, oldPath?, newPath?, hkind, Section.withOldFile, Section.withNewFile]
    · simp only [kindLines, hkind]
      rfl
  | deleted mode =>
    refine ⟨{ path := some (String.ofList f.path), isDeleted := true }, rfl, ?_, ?_⟩
    · simp [opened, oldPath?, newPath?, hkind, Section.withOldFile, Section.withNewFile]
    · simp only [kindLines, hkind]
      rfl
  | renamed =>
    refine ⟨{ path := some (String.ofList f.path), renamedTo := some (String.ofList f.path) },
      rfl, ?_, ?_⟩
    · simp [opened, oldPath?, newPath?, hkind, Section.withOldFile, Section.withNewFile]
    · simp only [kindLines, hkind, List.foldlM_cons, List.foldlM_nil, State.step,
        f.read_renameLine hkind]
      rfl

/-- The headers of a section end what was read before and leave what they say. -/
theorem FileSection.run_headers (f : FileSection) (st : State) :
    f.headers.foldlM State.step st = .ok (st.begin f.opened) := by
  obtain ⟨s, hs, hopened, hkind⟩ := f.run_kindLines st
  have hstart := st.step_sectionStart f.read_start
  have hold := st.step_oldFile f.read_oldLine hs
  have hnew := st.step_newFile (s.withOldFile f.oldPath?) f.read_newLine
  rw [headers, List.cons_append, State.run_cons hstart, State.run_append hkind,
    State.run_cons hold, State.run_cons hnew, hopened]
  rfl

/-! ## Hunks -/

/-- The section after some hunks. -/
def Section.withHunks (s : Section) (hs : List Hunk) : Section :=
  { s with
    inHunk := s.inHunk || !hs.isEmpty
    hunkLines := (hs.flatMap Hunk.lines).reverse ++ s.hunkLines }

/-- The lines of a hunk are added as they are. -/
theorem run_body (st : State) {ls : List (List Char)} :
    ∀ {s : Section}, s.inHunk = true → (∀ l ∈ ls, IsMarked l) → (∀ l ∈ ls, ¬ LooksLikeHeader l) →
      ls.foldlM State.step (st.begin s) =
        .ok (st.begin { s with hunkLines := ls.reverse ++ s.hunkLines }) := by
  induction ls with
  | nil => exact fun _ _ _ => rfl
  | cons l ls ih =>
    intro s hs hmarked hheader
    have hread := read_of_isMarked (hmarked l (by simp)) (hheader l (by simp))
    have hpush : (s.push l).inHunk = true := hs
    rw [State.run_cons (st.step_plain hread hs),
      ih hpush (fun l' h => hmarked l' (by simp [h])) fun l' h => hheader l' (by simp [h])]
    simp [Section.push]

/-- The hunks of a section are added one after another. -/
theorem run_hunks (st : State) {hs : List Hunk} (s : Section)
    (hheader : ∀ h ∈ hs, ∀ l ∈ h.body, ¬ LooksLikeHeader l) :
    (hs.flatMap Hunk.lines).foldlM State.step (st.begin s) = .ok (st.begin (s.withHunks hs)) := by
  induction hs generalizing s with
  | nil => simp [Section.withHunks, pure, Except.pure]
  | cons h hs ih =>
    have hfirst := st.step_hunkHeader s h.read_header
    have hbody := run_body st (s := Section.push { s with inHunk := true } h.header) rfl
      h.body_marked (hheader h (by simp))
    rw [List.flatMap_cons, Hunk.lines, List.cons_append, State.run_cons hfirst,
      State.run_append hbody, ih _ fun h' hmem => hheader h' (by simp [hmem])]
    simp [Section.withHunks, Section.push, Hunk.lines]

/-! ## Sections -/

/-- A section ends with the changed file that it was written for. -/
theorem FileSection.finish?_opened (f : FileSection) :
    (f.opened.withHunks f.hunks).finish? = some f.change := by
  have hpatch : (f.opened.withHunks f.hunks).patch? = f.change.patch := by
    have hbinary : (f.opened.withHunks f.hunks).isBinary = false := by
      cases hkind : f.kind <;> simp [opened, hkind, Section.withHunks]
    have hlines : (f.opened.withHunks f.hunks).hunkLines = f.hunkLines.reverse := by
      cases hkind : f.kind <;> simp [opened, hkind, Section.withHunks, hunkLines]
    rw [Section.patch?, hbinary, hlines, List.reverse_reverse, joinLines_eq_intercalate]
    cases hhunks : f.hunks with
    | nil => simp [change, hunkLines, hhunks]
    | cons h hs => simp [change, hunkLines, hhunks, Hunk.lines]
  have hstatus : (f.opened.withHunks f.hunks).status = f.kind.status := by
    cases hkind : f.kind <;>
      simp [opened, hkind, Section.withHunks, Section.status, FileKind.status]
  have hpath : ((f.opened.withHunks f.hunks).renamedTo.or
      ((f.opened.withHunks f.hunks).path.or (f.opened.withHunks f.hunks).oldPath)) =
      some (String.ofList f.path) := by
    cases hkind : f.kind <;> simp [opened, hkind, Section.withHunks]
  rw [Section.finish?, hpath, hpatch, hstatus]
  rfl

theorem State.result_begin (st : State) {s : Section} {c : FileChange} (h : s.finish? = some c) :
    (st.begin s).result = st.result ++ [c] := by
  simp only [result, begin, Option.bind_some, h, List.reverse_append, Option.toList_some]
  cases hc : st.current.bind (·.finish?) <;> simp

/-- Sections are read one after another, each of them giving its file. -/
theorem run_sections {sections : List FileSection}
    (hheader : ∀ f ∈ sections, ∀ h ∈ f.hunks, ∀ l ∈ h.body, ¬ LooksLikeHeader l) (st : State) :
    ∃ st', (sections.flatMap FileSection.lines).foldlM State.step st = .ok st' ∧
      st'.result = st.result ++ sections.map FileSection.change := by
  induction sections generalizing st with
  | nil => exact ⟨st, rfl, by simp⟩
  | cons f sections ih =>
    have hhunks := run_hunks st f.opened (hheader f (by simp))
    obtain ⟨st', hrun, hresult⟩ := ih (fun f' hf => hheader f' (by simp [hf]))
      (st.begin (f.opened.withHunks f.hunks))
    refine ⟨st', ?_, ?_⟩
    · rw [List.flatMap_cons, FileSection.lines, List.append_assoc,
        State.run_append (f.run_headers st), FileSection.hunkLines, State.run_append hhunks, hrun]
    · rw [hresult, State.result_begin st f.finish?_opened]
      simp

/-! ## Whole diffs -/

/-- **Splitting undoes writing**: a written diff gives exactly one changed file for each of its
sections, in order and with the path, the status and the hunks of the section, provided that no
line of a hunk looks like the header of a file. -/
theorem split_written {sections : List FileSection}
    (hheader : ∀ f ∈ sections, ∀ h ∈ f.hunks, ∀ l ∈ h.body, ¬ LooksLikeHeader l) :
    split (written sections) = .ok (sections.map FileSection.change) := by
  obtain ⟨st, hrun, hresult⟩ := run_sections hheader {}
  rw [split, lines_written, hrun]
  exact congrArg Except.ok hresult

/-- A class that moves to another file and changes on the way. -/
def movedClass : FileSection where
  path := "src/New.java".toList
  oldPath := "src/Old.java".toList
  kind := .renamed
  hunks := [{
    oldStart := 4, oldCount := 2, newStart := 4, newCount := 2
    heading := " void run() \x7b".toList
    body := ["-    old();".toList, "+    new();".toList, " \x7d".toList]
    newStart_lt := by decide
    heading_oneLine := by decide
    body_oneLine := by decide
    body_marked := by simp [IsMarked] }]
  path_ne := by decide
  path_unbroken := by decide
  path_slashed := by decide
  path_not_here := by decide
  oldPath_unbroken := by decide
  mode_oneLine := by simp
  renamed_sideless := fun _ => by decide

/-- A renamed class with one hunk: the text of its section and the record that is read back. -/
theorem split_written_moved :
    (∀ f ∈ [movedClass], ∀ h ∈ f.hunks, ∀ l ∈ h.body, ¬ LooksLikeHeader l) ∧
      written [movedClass] = Text.unlines ([
        "diff --git a/src/Old.java b/src/New.java", "rename to src/New.java",
        "--- a/src/Old.java", "+++ b/src/New.java",
        "@@ -4,2 +4,2 @@ void run() \x7b", "-    old();", "+    new();", " \x7d"].map String.toList) ∧
      split (written [movedClass]) = .ok [{
        filename := "src/New.java"
        patch := some "@@ -4,2 +4,2 @@ void run() \x7b\n-    old();\n+    new();\n \x7d"
        status := some "renamed" }] := by
  refine ⟨by decide, by decide +kernel, ?_⟩
  rw [split_written (by decide)]
  exact congrArg Except.ok (by decide)

end TestImpact.Diff
