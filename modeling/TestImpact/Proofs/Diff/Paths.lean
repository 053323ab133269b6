import TestImpact.Proofs.Diff.Rejection
import TestImpact.Proofs.Diff.RoundTrip

/-!
# The paths that sections tell

The section of a file states its new path up to three times: in its first line, behind `rename to `
and behind `+++ `. The splitter takes it from the line with `rename to ` if there is one, else from
the line with `+++ `, else from the first line, whatever else the section holds (`split_filenames`).
The side is written before the path in two of them only, but it is taken off in all three; so a
renamed file in a directory `a` or `b` at the top loses that directory. And of the first line the
second word is taken, which is not the new path if there is white space in the old one
(`keepsPaths_iff`).
-/

namespace TestImpact.Diff

/-! ## Lines that tell no new path -/

/-- Whether a line tells the path of the new file. -/
def TellsPath (l : List Char) : Prop := "+++ ".toList <+: l ∨ "rename to ".toList <+: l

instance : DecidablePred TellsPath :=
  fun l => inferInstanceAs (Decidable ("+++ ".toList <+: l ∨ "rename to ".toList <+: l))

/-- A line of a section that neither begins a section nor tells a path, and that is not rejected
either. -/
structure IsSilent (l : List Char) : Prop where
  oneLine : Text.OneLine l
  begins_not : ¬ BeginsSection l
  tells_not : ¬ TellsPath l
  startsAt : IsMarkedHeader l → ∃ n, StartsAt l n

theorem IsSilent.unmarked {l : List Char} (hline : Text.OneLine l) (hbegins : ¬ BeginsSection l)
    (htells : ¬ TellsPath l) (hmarked : ¬ IsMarkedHeader l) : IsSilent l :=
  ⟨hline, hbegins, htells, fun h => absurd h hmarked⟩

/-- Whether a line that is read so tells the path of the new file. -/
def Line.tells : Line → Bool
  | .newFile _ | .renamedTo _ => true
  | _ => false

variable {l : List Char}

/-- What is read as a path is a line that tells one. -/
theorem tells_read (h : (Line.read l).tells = true) : TellsPath l := by
  unfold Line.read at h
  split at h
  · cases h
  · split at h
    · cases h
    · split at h
      · next rest hrest => exact .inl ⟨rest, (Line.after?_eq_some_iff.mp hrest).symm⟩
      · split at h
        · next rest hrest => exact .inr ⟨rest, (Line.after?_eq_some_iff.mp hrest).symm⟩
        · exfalso
          grind [Line.tells]

/-- The paths that name the changed file of a section are the same in both. -/
def Section.SameNames (s s' : Section) : Prop := s'.path = s.path ∧ s'.renamedTo = s.renamedTo

theorem Section.SameNames.trans {s s' s'' : Section} (h : s.SameNames s') (h' : s'.SameNames s'') :
    s.SameNames s'' :=
  ⟨h'.1.trans h.1, h'.2.trans h.2⟩

/-- A line that tells no path leaves the names of the section. -/
theorem Section.sameNames_step {s s' : Section} {read : Line} (htells : read.tells = false)
    (h : s.step l read = .ok s') : s.SameNames s' := by
  cases read with
  | newFile path => cases htells
  | renamedTo path => cases htells
  | hunkHeader valid =>
    cases valid with
    | false => cases h
    | true =>
      cases h
      exact ⟨rfl, rfl⟩
  | newFileMode | deletedFileMode | binary =>
    cases h
    exact ⟨rfl, rfl⟩
  | sectionStart | oldFile | plain =>
    cases h
    constructor <;> (split <;> rfl)

/-- No line but the header of a hunk opens one. -/
theorem Section.inHunk_step {s s' : Section} {read : Line}
    (hread : ∀ valid, read ≠ .hunkHeader valid) (hs : s.inHunk = false)
    (h : s.step l read = .ok s') : s'.inHunk = false := by
  cases read with
  | hunkHeader valid => exact absurd rfl (hread valid)
  | newFile path =>
    cases h
    cases path <;> rfl
  | renamedTo | newFileMode | deletedFileMode =>
    cases h
    exact hs
  | binary =>
    cases h
    rfl
  | sectionStart | oldFile | plain =>
    cases h
    rw [hs]
    exact hs

namespace State

variable (st : State) {s : Section}

/-- A line that begins no section is a step of the section that is open. -/
theorem step_begin (h : ¬ BeginsSection l) :
    (st.begin s).step l = (s.step l (Line.read l)).map st.begin := by
  have hread : (Line.read l).begins = false := by
    rw [← Bool.not_eq_true, begins_read_iff]
    exact h
  cases hstep : s.step l (Line.read l) with
  | ok s' => exact step_eq_ok_iff.mpr (.inside hread rfl hstep)
  | error e =>
    obtain ⟨hheader, rfl⟩ := Section.step_eq_error_iff.mp hstep
    exact step_eq_error_iff.mpr ⟨rfl, hheader, rfl⟩

/-- A silent line is read and changes no name. Outside of hunks it opens none unless it is the
header of one. -/
theorem step_silent (h : IsSilent l) :
    ∃ s', (st.begin s).step l = .ok (st.begin s') ∧ s.SameNames s' ∧
      (¬ IsMarkedHeader l → s.inHunk = false → s'.inHunk = false) := by
  rw [step_begin st h.begins_not]
  cases hstep : s.step l (Line.read l) with
  | error e =>
    -- only a header of a hunk that does not tell where it begins could be rejected
    obtain ⟨hheader, -⟩ := Section.step_eq_error_iff.mp hstep
    obtain ⟨hmarked, hinvalid⟩ := read_eq_hunkHeader_iff.mp hheader
    rw [isHunkHeader_iff.mpr (h.startsAt hmarked)] at hinvalid
    cases hinvalid
  | ok s' =>
    have htells : (Line.read l).tells = false := by
      rw [← Bool.not_eq_true]
      exact fun htells => h.tells_not (tells_read htells)
    refine ⟨s', rfl, Section.sameNames_step htells hstep, fun hmarked hs => ?_⟩
    have hread : ∀ valid, Line.read l ≠ .hunkHeader valid :=
      fun valid hread => hmarked (read_eq_hunkHeader_iff.mp hread).1
    exact Section.inHunk_step hread hs hstep

/-- Silent lines leave the names of the open section. -/
theorem run_silent {ls : List (List Char)} (h : ∀ l ∈ ls, IsSilent l) :
    ∃ s', ls.foldlM step (st.begin s) = .ok (st.begin s') ∧ s.SameNames s' := by
  induction ls generalizing s with
  | nil => exact ⟨s, rfl, rfl, rfl⟩
  | cons l ls ih =>
    obtain ⟨mid, hstep, hmid, -⟩ := step_silent st (s := s) (h l (by simp))
    obtain ⟨s', hrun, hs'⟩ := ih (s := mid) fun l' hl' => h l' (by simp [hl'])
    exact ⟨s', (run_cons hstep ls).trans hrun, hmid.trans hs'⟩

end State

/-! ## Sections as git writes them -/

/-- The section of a file whose new path is `path`, with what git may write into it: between its
first line and its hunks there may be lines on modes, similarity and the like, the line that tells
what the file is renamed to, and the headers of the two files. -/
structure GitSection where
  path : List Char
  /-- The old path, in which there may be white space. -/
  oldPath : List Char
  /-- The lines between the first one and the headers of the files. -/
  extended : List (List Char)
  /-- What the header of the old file says, if there are headers of files. -/
  compared : Option (List Char)
  /-- The lines of the hunks, with their headers. -/
  content : List (List Char)
  path_ne : path ≠ []
  path_unbroken : Text.Unbroken path
  path_slashed : '\\' ∉ path
  path_not_here : ¬ "./".toList <+: path
  oldPath_oneLine : Text.OneLine oldPath
  extended_lines : ∀ l ∈ extended,
    l = "rename to ".toList ++ path ∨ IsSilent l ∧ ¬ IsMarkedHeader l
  compared_oneLine : ∀ old, compared = some old → Text.OneLine old
  content_silent : ∀ l ∈ content, IsSilent l

namespace GitSection

variable (f : GitSection)

/-- The first line of the section. -/
def start : List Char :=
  "diff --git ".toList ++ ("a/".toList ++ f.oldPath ++ ' ' :: ("b/".toList ++ f.path))

/-- The line for a file that is renamed. The path has no side in it. -/
def renameLine : List Char := "rename to ".toList ++ f.path

/-- The headers of the old and the new file. -/
def comparedLines : List (List Char) :=
  match f.compared with
  | none => []
  | some old => ["--- ".toList ++ old, "+++ ".toList ++ ("b/".toList ++ f.path)]

/-- The lines of the section. -/
def lines : List (List Char) := f.start :: f.extended ++ f.comparedLines ++ f.content

/-- The second word of the old path with its side, if there is white space in it. -/
def secondWord? : Option (List Char) := (Text.words Text.isBlank ("a/".toList ++ f.oldPath))[1]?

/-- The path that is taken from the first line. -/
def startPath : List Char := normalizePath (f.secondWord?.getD ("b/".toList ++ f.path))

/-- The path that is taken from the section. -/
def takenPath : List Char :=
  if f.renameLine ∈ f.extended then normalizePath f.path
  else if f.compared.isSome then f.path
  else f.startPath

/-! ### The lines of a section are lines -/

theorem lines_oneLine : ∀ l ∈ f.lines, Text.OneLine l := by
  have hpath : Text.OneLine f.path := f.path_unbroken.oneLine
  have hside : Text.OneLine ("b/".toList ++ f.path) :=
    (newSide_unbroken f.path_unbroken).oneLine
  have hstart : Text.OneLine f.start := sides_oneLine f.oldPath_oneLine hpath
  have hextended : ∀ l ∈ f.extended, Text.OneLine l := by
    intro l hl
    obtain rfl | ⟨hsilent, -⟩ := f.extended_lines l hl
    · exact Text.oneLine_append.mpr ⟨by decide, hpath⟩
    · exact hsilent.oneLine
  have hcompared : ∀ l ∈ f.comparedLines, Text.OneLine l := by
    intro l hl
    cases hcompared : f.compared with
    | none => simp [comparedLines, hcompared] at hl
    | some old =>
      simp only [comparedLines, hcompared, List.mem_cons, List.not_mem_nil, or_false] at hl
      rcases hl with rfl | rfl
      · exact Text.oneLine_append.mpr ⟨by decide, f.compared_oneLine old hcompared⟩
      · exact Text.oneLine_append.mpr ⟨by decide, hside⟩
  intro l hl
  simp only [lines, List.cons_append, List.mem_cons, List.mem_append] at hl
  rcases hl with rfl | (hl | hl) | hl
  · exact hstart
  · exact hextended l hl
  · exact hcompared l hl
  · exact (f.content_silent l hl).oneLine

/-! ### What the lines of a section are read as -/

theorem read_start : Line.read f.start = .sectionStart (some (String.ofList f.startPath)) :=
  read_sectionStart f.oldPath (by simp) (newSide_unbroken f.path_unbroken)

theorem read_renameLine :
    Line.read f.renameLine = .renamedTo (String.ofList (normalizePath f.path)) :=
  rfl

theorem read_newLine :
    Line.read ("+++ ".toList ++ ("b/".toList ++ f.path)) = .newFile (some (String.ofList f.path)) :=
  read_newSide f.path_unbroken f.path_slashed f.path_not_here

end GitSection

/-! ## What is taken from a section -/

namespace GitSection

variable (f : GitSection) (st : State)

/-- Lines before the headers of the files tell what the file is renamed to, and nothing else. -/
theorem run_extended {ls : List (List Char)} (s : Section)
    (h : ∀ l ∈ ls, l = f.renameLine ∨ IsSilent l ∧ ¬ IsMarkedHeader l) (hs : s.inHunk = false) :
    ∃ s', ls.foldlM State.step (st.begin s) = .ok (st.begin s') ∧ s'.inHunk = false ∧
      s'.path = s.path ∧
      s'.renamedTo = if f.renameLine ∈ ls then some (String.ofList (normalizePath f.path))
        else s.renamedTo := by
  -- no hunk may be open at the end, or else the header of the old file would begin a section
  induction ls generalizing s with
  | nil => exact ⟨s, rfl, hs, rfl, by simp⟩
  | cons l ls ih =>
    have hls : ∀ l' ∈ ls, l' = f.renameLine ∨ IsSilent l' ∧ ¬ IsMarkedHeader l' :=
      fun l' hl' => h l' (by simp [hl'])
    obtain rfl | ⟨hsilent, hmarked⟩ := h l (by simp)
    · let renamed : Section := { s with renamedTo := some (String.ofList (normalizePath f.path)) }
      have hstep : (st.begin s).step f.renameLine = .ok (st.begin renamed) := by
        simp only [State.step, f.read_renameLine, State.begin]
        rfl
      obtain ⟨s', hrun, hin, hpath, hrenamed⟩ := ih renamed hls hs
      refine ⟨s', (State.run_cons hstep ls).trans hrun, hin, hpath, ?_⟩
      rw [hrenamed, ite_self, if_pos List.mem_cons_self]
    · obtain ⟨mid, hstep, hmid, hopen⟩ := State.step_silent st (s := s) hsilent
      obtain ⟨s', hrun, hin, hpath, hrenamed⟩ := ih mid hls (hopen hmarked hs)
      refine ⟨s', (State.run_cons hstep ls).trans hrun, hin, hpath.trans hmid.1, ?_⟩
      have hne : f.renameLine ≠ l := fun heq => hsilent.tells_not (.inr ⟨f.path, heq⟩)
      rw [hrenamed, hmid.2]
      simp [hne]

/-- The headers of the files tell the new path. -/
theorem run_comparedLines (s : Section) (hs : s.inHunk = false) :
    ∃ s', f.comparedLines.foldlM State.step (st.begin s) = .ok (st.begin s') ∧
      s'.renamedTo = s.renamedTo ∧
      s'.path = if f.compared.isSome then some (String.ofList f.path) else s.path := by
  cases hcompared : f.compared with
  | none =>
    rw [comparedLines, hcompared]
    exact ⟨s, rfl, rfl, rfl⟩
  | some old =>
    have hold := st.step_oldFile (l := "--- ".toList ++ old) rfl hs
    have hnew := st.step_newFile (s.withOldFile (headerPath? old)) f.read_newLine
    rw [comparedLines, hcompared]
    refine ⟨_, (State.run_cons hold _).trans (State.run_cons hnew []), ?_, rfl⟩
    cases headerPath? old <;> rfl

/-- After the lines of a section the names in it are those that it is to be told by. -/
theorem run_lines :
    ∃ s, f.lines.foldlM State.step st = .ok (st.begin s) ∧
      s.renamedTo.or s.path = some (String.ofList f.takenPath) := by
  obtain ⟨s₁, hextended, hin, hpath₁, hrenamed₁⟩ := f.run_extended st
    { path := some (String.ofList f.startPath) } f.extended_lines rfl
  obtain ⟨s₂, hcompared, hrenamed₂, hpath₂⟩ := f.run_comparedLines st s₁ hin
  obtain ⟨s₃, hcontent, hpath₃, hrenamed₃⟩ := st.run_silent (s := s₂) f.content_silent
  refine ⟨s₃, ?_, ?_⟩
  · rw [lines, List.cons_append, List.cons_append, List.append_assoc,
      State.run_cons (st.step_sectionStart f.read_start), State.run_append hextended,
      State.run_append hcompared, hcontent]
  · -- each part has kept the names of the part before it, or has replaced one of them
    rw [hrenamed₃, hpath₃, hrenamed₂, hpath₂, hrenamed₁, hpath₁, takenPath]
    split
    · rfl
    · split <;> rfl

end GitSection

/-- A section in which a new path has been told ends with a file of that name. -/
theorem Section.finish?_of_names {s : Section} {path : String}
    (h : s.renamedTo.or s.path = some path) :
    ∃ c, s.finish? = some c ∧ c.filename = path := by
  refine ⟨{ filename := path, patch := s.patch?, status := some s.status }, ?_, rfl⟩
  rw [finish?, ← Option.or_assoc, h]
  rfl

/-- Sections are read one after another, each giving a file of the name that is taken from it. -/
theorem run_gitSections (sections : List GitSection) (st : State) :
    ∃ st', (sections.flatMap GitSection.lines).foldlM State.step st = .ok st' ∧
      st'.result.map (·.filename) = st.result.map (·.filename) ++
        sections.map fun f => String.ofList f.takenPath := by
  induction sections generalizing st with
  | nil => exact ⟨st, rfl, by simp⟩
  | cons f sections ih =>
    obtain ⟨s, hlines, hnames⟩ := f.run_lines st
    obtain ⟨c, hfinish, hc⟩ := Section.finish?_of_names hnames
    obtain ⟨st', hrun, hresult⟩ := ih (st.begin s)
    refine ⟨st', ?_, ?_⟩
    · rw [List.flatMap_cons, State.run_append hlines, hrun]
    · rw [hresult, st.result_begin hfinish]
      simp [hc]

/-! ## Whole diffs -/

/-- A diff that git writes. -/
def gitText (sections : List GitSection) : List Char :=
  Text.unlines (sections.flatMap GitSection.lines)

/-- Every section gives one file, whose name is the path that is taken from the section. -/
theorem split_filenames (sections : List GitSection) :
    ∃ files, split (gitText sections) = .ok files ∧
      files.map (·.filename) = sections.map fun f => String.ofList f.takenPath := by
  have hlines :
      Text.lines (unifyLineEnds (gitText sections)) = sections.flatMap GitSection.lines := by
    apply lines_unifyLineEnds_unlines
    intro l hl
    obtain ⟨f, -, hl⟩ := List.mem_flatMap.mp hl
    exact f.lines_oneLine l hl
  obtain ⟨st, hrun, hresult⟩ := run_gitSections sections {}
  refine ⟨st.result, ?_, hresult⟩
  rw [split, hlines, hrun]
  rfl

/-- The promise that the files of a diff have the new paths of its sections. -/
def KeepsPaths (sections : List GitSection) : Prop :=
  ∃ files, split (gitText sections) = .ok files ∧
    files.map (·.filename) = sections.map fun f => String.ofList f.path

/-- Whether the line that decides on the path of a section tells it as it is: the line for a renamed
file does so if the path does not begin like one with a side, the header of the new file always
does, and the first line does if no other second word stands before the new path. -/
def GitSection.PathKept (f : GitSection) : Prop :=
  if f.renameLine ∈ f.extended then ¬ "a/".toList <+: f.path ∧ ¬ "b/".toList <+: f.path
  else f.compared = none → ∀ w, f.secondWord? = some w → normalizePath w = f.path

/-- The path that is taken is the stated one just where the section keeps it. -/
theorem GitSection.takenPath_eq_iff (f : GitSection) : f.takenPath = f.path ↔ f.PathKept := by
  unfold takenPath PathKept
  split
  · exact normalizePath_eq_self_iff f.path_unbroken f.path_slashed f.path_not_here
  · have hside := normalizePath_newSide f.path_unbroken f.path_slashed f.path_not_here
    cases hcompared : f.compared with
    | some old => simp
    | none =>
      rw [startPath]
      cases hword : f.secondWord? with
      | none => simpa using hside
      | some w => simp

/-- **When the new paths are kept.** A diff gives one file for each of its sections, and all of them
have the new paths if and only if in every section the line that decides tells the path as it is. -/
theorem keepsPaths_iff (sections : List GitSection) :
    KeepsPaths sections ↔ ∀ f ∈ sections, f.PathKept := by
  obtain ⟨files, hsplit, hnames⟩ := split_filenames sections
  have hpaths : KeepsPaths sections ↔
      sections.map (fun f => String.ofList f.takenPath) =
        sections.map fun f => String.ofList f.path := by
    rw [KeepsPaths, hsplit, ← hnames]
    simp
  rw [hpaths, List.map_inj_left]
  simp only [String.ofList_inj, GitSection.takenPath_eq_iff]

/-- A file that moves into a directory `b` at the top. -/
def movedIntoB : GitSection where
  path := "b/X.java".toList
  oldPath := "X.java".toList
  extended := ["similarity index 100%".toList, "rename from X.java".toList,
    "rename to b/X.java".toList]
  compared := none
  content := []
  path_ne := by decide
  path_unbroken := by decide
  path_slashed := by decide
  path_not_here := by decide
  oldPath_oneLine := by decide
  extended_lines := by
    intro l hl
    simp only [List.mem_cons, List.not_mem_nil, or_false] at hl
    rcases hl with rfl | rfl | rfl
    · exact .inr ⟨.unmarked (by decide) (by decide) (by decide) (by decide), by decide⟩
    · exact .inr ⟨.unmarked (by decide) (by decide) (by decide) (by decide), by decide⟩
    · exact .inl rfl
  compared_oneLine := by simp
  content_silent := by simp

/-- The directory is lost. -/
theorem not_keepsPaths : ¬ ∀ sections, KeepsPaths sections := by
  intro hkeeps
  obtain ⟨files, hsplit, hnames⟩ := hkeeps [movedIntoB]
  have hfiles : split (gitText [movedIntoB]) = .ok [⟨"X.java", none, some "renamed"⟩] := by
    decide +kernel
  rw [hfiles] at hsplit
  cases hsplit
  exact absurd hnames (by decide)

end TestImpact.Diff
