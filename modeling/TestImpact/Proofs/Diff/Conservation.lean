import TestImpact.Diff.Split
import TestImpact.Proofs.Text.Lines

/-!
# Lines that splitting keeps

Splitting never makes up a line: what stands in the patches is, in order, some of the lines of the
diff, and only lines that are read as part of a hunk (`kept_run`). What one line does to the
splitter is a relation between states first (`State.Steps`), with one case for each thing that can
happen; every fact about whole runs is a case analysis of it.
-/

namespace TestImpact

/-- The lines of the patch of a changed file, none if it has no patch. -/
def FileChange.patchLines (c : FileChange) : List (List Char) :=
  match c.patch with
  | none => []
  | some patch => Text.splitOn ['\n'] patch.toList

namespace Diff

/-! ## Readings -/

/-- Whether a line that is read so may begin a section. -/
def Line.begins : Line → Bool
  | .sectionStart _ | .oldFile _ => true
  | _ => false

theorem Line.begins_eq_false {read : Line} (hstart : ∀ path, read = .sectionStart path → False)
    (hold : ∀ path, read = .oldFile path → False) : read.begins = false := by
  cases read with
  | sectionStart path => exact (hstart path rfl).elim
  | oldFile path => exact (hold path rfl).elim
  | _ => rfl

/-- Whether a line that is read so may belong to a hunk. -/
def Line.isKept : Line → Bool
  | .hunkHeader true | .plain => true
  | _ => false

/-- Those of some lines that are read as lines of hunks. -/
def keptLines (ls : List (List Char)) : List (List Char) :=
  ls.filter fun l => (Line.read l).isKept

theorem keptLines_cons (l : List Char) (ls : List (List Char)) :
    keptLines (l :: ls) = keptLines [l] ++ keptLines ls := by
  rw [keptLines, keptLines, keptLines, ← List.filter_append, List.singleton_append]

theorem keptLines_append (ls ls' : List (List Char)) :
    keptLines (ls ++ ls') = keptLines ls ++ keptLines ls' :=
  List.filter_append ..

theorem keptLines_sublist (ls : List (List Char)) : (keptLines ls).Sublist ls :=
  List.filter_sublist

theorem keptLines_singleton {l : List Char} {read : Line} (hread : Line.read l = read)
    (h : read.isKept = false) : keptLines [l] = [] := by
  simp [keptLines, hread, h]

/-! ## Steps -/

/-- What a line can do to the sections read. -/
inductive State.Steps (st : State) (l : List Char) : State → Prop
  | sectionStart {path} : Line.read l = .sectionStart path → Steps st l (st.begin { path := path })
  /-- In a bare diff the old file begins a section. -/
  | bareStart {path} : Line.read l = .oldFile path →
      (∀ s, st.current = some s → s.inHunk = true) →
      Steps st l (st.begin (Section.withOldFile {} path))
  | oldFile {path s} : Line.read l = .oldFile path → st.current = some s → s.inHunk = false →
      Steps st l { st with current := some (s.withOldFile path) }
  | outside : (Line.read l).begins = false → st.current = none → Steps st l st
  | inside {s s'} : (Line.read l).begins = false → st.current = some s →
      s.step l (Line.read l) = .ok s' → Steps st l { st with current := some s' }

/-- The step of the splitter succeeds with what a line can do, and with nothing else. -/
theorem State.step_eq_ok_iff {st st' : State} {l : List Char} :
    st.step l = .ok st' ↔ st.Steps l st' := by
  constructor
  · intro h
    rw [step] at h
    -- the branches of the step are the constructors of the relation, in another order
    split at h
    · next hread => exact Except.ok.inj h ▸ .sectionStart hread
    · next path s hread hs =>
      split at h
      · next hin =>
        refine Except.ok.inj h ▸ .bareStart hread fun s' hs' => ?_
        rw [hs] at hs'
        exact Option.some.inj hs' ▸ hin
      · next hin => exact Except.ok.inj h ▸ .oldFile hread hs (by simpa using hin)
    · next hread hs =>
      exact Except.ok.inj h ▸ .bareStart hread fun s' hs' => absurd (hs ▸ hs') (by simp)
    · next hs hnotStart hnotOld =>
      exact Except.ok.inj h ▸ .outside (Line.begins_eq_false hnotStart hnotOld) hs
    · next s hs hnotStart hnotOld =>
      have hbegins := Line.begins_eq_false hnotStart hnotOld
      cases hstep : s.step l (Line.read l) with
      | error e => simp [hstep, bind, Except.bind] at h
      | ok s' =>
        rw [hstep] at h
        exact Except.ok.inj h ▸ .inside hbegins hs hstep
  · rintro (hread | ⟨hread, hin⟩ | ⟨hread, hs, hin⟩ | ⟨hread, hs⟩ | ⟨hread, hs, hstep⟩)
    · simp [step, hread]
    · cases hs : st.current with
      | none => simp [step, hread, hs]
      | some s => simp [step, hread, hs, hin s hs]
    · simp [step, hread, hs, hin]
    · cases hl : Line.read l <;> simp_all [step, Line.begins]
    · cases hl : Line.read l <;> simp_all [step, Line.begins, bind, Except.bind, pure, Except.pure]

/-! ## Lines that are kept -/

theorem joinLines_eq_intercalate (ls : List (List Char)) :
    joinLines ls = ['\n'].intercalate ls := by
  induction ls with
  | nil => rfl
  | cons l ls ih =>
    cases ls with
    | nil => simp [joinLines]
    | cons l' ls => simp [joinLines, ih]

namespace Section

variable {s s' : Section} {l : List Char}

/-- What a line within a section does to its hunks: it leaves their lines alone and begins no hunk,
or it is added to them, as a header or as a line of the hunk that is being read. -/
theorem step_cases {read : Line} (hread : read.begins = false) (h : s.step l read = .ok s') :
    (s'.hunkLines = s.hunkLines ∧ (s'.inHunk = true → s.inHunk = true)) ∨
    (s'.hunkLines = l :: s.hunkLines ∧
      (read = .hunkHeader true ∨ (read = .plain ∧ s.inHunk = true))) := by
  cases read with
  | sectionStart path => cases hread
  | oldFile path => cases hread
  | newFile path =>
    obtain rfl := Except.ok.inj h
    left
    cases path <;> exact ⟨rfl, fun hin => nomatch hin⟩
  | binary =>
    obtain rfl := Except.ok.inj h
    exact .inl ⟨rfl, fun hin => nomatch hin⟩
  | hunkHeader valid =>
    cases valid with
    | false => cases h
    | true =>
      obtain rfl := Except.ok.inj h
      exact .inr ⟨rfl, .inl rfl⟩
  | plain =>
    obtain rfl := Except.ok.inj h
    split
    · next hin => exact .inr ⟨rfl, .inr ⟨rfl, hin⟩⟩
    · exact .inl ⟨rfl, id⟩
  | _ =>
    obtain rfl := Except.ok.inj h
    exact .inl ⟨rfl, id⟩

/-- A line within a section is added to the hunks or leaves them alone. -/
theorem hunkLines_step {read : Line} (hread : read.begins = false) (h : s.step l read = .ok s') :
    s'.hunkLines = s.hunkLines ∨ (s'.hunkLines = l :: s.hunkLines ∧ read.isKept = true) := by
  rcases step_cases hread h with ⟨hsame, -⟩ | ⟨hpush, rfl | ⟨rfl, -⟩⟩
  · exact .inl hsame
  · exact .inr ⟨hpush, rfl⟩
  · exact .inr ⟨hpush, rfl⟩

/-- If the changed file of a section has a patch, its lines are those of the hunks, of which there
is one. -/
theorem patchLines_of_patch {c : FileChange} {patch : String} (h : s.finish? = some c)
    (hpatch : c.patch = some patch) (hlines : ∀ l ∈ s.hunkLines, '\n' ∉ l) :
    s.hunkLines ≠ [] ∧ c.patchLines = s.hunkLines.reverse := by
  rw [finish?, Option.map_eq_some_iff] at h
  obtain ⟨path, -, rfl⟩ := h
  replace hpatch : s.patch? = some patch := hpatch
  rw [FileChange.patchLines]
  simp only [hpatch]
  rw [patch?] at hpatch
  split at hpatch
  · cases hpatch
  · next hne =>
    obtain rfl := Option.some.inj hpatch
    have hne : s.hunkLines ≠ [] := by
      rintro hnil
      simp [hnil] at hne
    refine ⟨hne, ?_⟩
    -- joining the lines and splitting the patch cancel each other, for there is a line
    rw [String.toList_ofList, joinLines_eq_intercalate]
    apply Text.splitOn_intercalate (by simpa using hne)
    exact fun l hl => hlines l (List.mem_reverse.mp hl)

/-- The patch of a section has the lines of its hunks, or none of them if the file is binary. -/
theorem patchLines_finish? {c : FileChange} (h : s.finish? = some c)
    (hlines : ∀ l ∈ s.hunkLines, '\n' ∉ l) : c.patchLines.Sublist s.hunkLines.reverse := by
  cases hpatch : c.patch with
  | none =>
    rw [FileChange.patchLines, hpatch]
    exact List.nil_sublist _
  | some patch =>
    have heq := (patchLines_of_patch h hpatch hlines).2
    exact heq ▸ List.Sublist.refl _

end Section

namespace State

variable {st st' : State}

/-- The lines kept so far, first those in the patches of the sections that have ended. -/
def kept (st : State) : List (List Char) :=
  st.files.reverse.flatMap FileChange.patchLines ++
    (st.current.map fun s => s.hunkLines.reverse).getD []

/-- The patches hold no more than the lines kept. -/
theorem patchLines_result (hlines : ∀ l ∈ st.kept, '\n' ∉ l) :
    (st.result.flatMap FileChange.patchLines).Sublist st.kept := by
  rw [result, List.flatMap_append, kept]
  refine (List.append_sublist_append_left _).mpr ?_
  cases hs : st.current with
  | none => exact List.nil_sublist _
  | some s =>
    have hcurrent : ∀ l ∈ s.hunkLines, '\n' ∉ l := by
      intro l hl
      exact hlines l (List.mem_append_right _ (by simpa [hs] using hl))
    cases hc : s.finish? with
    | none => simp [hc]
    | some c => simpa [hc] using Section.patchLines_finish? hc hcurrent

/-- What is kept when a section ends is what stands in the patches. -/
theorem kept_begin {next : Section} (hnext : next.hunkLines = []) :
    (st.begin next).kept = st.result.flatMap FileChange.patchLines := by
  cases hc : st.current.bind (·.finish?) <;> simp [kept, begin, result, hnext, hc]

/-- A step keeps at most the line it reads, and keeps it only as a line of a hunk. -/
theorem kept_step {l : List Char} (h : st.Steps l st') (hlines : ∀ l ∈ st.kept, '\n' ∉ l) :
    st'.kept.Sublist (st.kept ++ keptLines [l]) := by
  -- a section that ends gives back its lines, and one that begins has none
  cases h with
  | sectionStart hread =>
    rw [kept_begin rfl]
    exact (patchLines_result hlines).trans (List.sublist_append_left _ _)
  | @bareStart path hread hin =>
    have hnext : (Section.withOldFile {} path).hunkLines = [] := by cases path <;> rfl
    rw [kept_begin hnext]
    exact (patchLines_result hlines).trans (List.sublist_append_left _ _)
  | @oldFile path s hread hs hin =>
    have hnext : (s.withOldFile path).hunkLines = s.hunkLines := by cases path <;> rfl
    have hkept : ({ st with current := some (s.withOldFile path) } : State).kept = st.kept := by
      simp [kept, hs, hnext]
    rw [hkept]
    exact List.sublist_append_left _ _
  | outside hread hs => exact List.sublist_append_left _ _
  | @inside s s' hread hs hstep =>
    rcases Section.hunkLines_step hread hstep with hsame | ⟨hpush, hkeep⟩
    · have hkept : ({ st with current := some s' } : State).kept = st.kept := by
        simp [kept, hs, hsame]
      rw [hkept]
      exact List.sublist_append_left _ _
    · have hkept : ({ st with current := some s' } : State).kept = st.kept ++ keptLines [l] := by
        simp [kept, hs, hpush, keptLines, hkeep]
      exact hkept ▸ List.Sublist.refl _

/-- A run keeps, in order, only lines that it reads as lines of hunks. -/
theorem kept_run {ls : List (List Char)} (h : ls.foldlM step st = .ok st')
    (hlines : ∀ l ∈ st.kept, '\n' ∉ l) (hls : ∀ l ∈ ls, '\n' ∉ l) :
    st'.kept.Sublist (st.kept ++ keptLines ls) := by
  induction ls generalizing st with
  | nil =>
    obtain rfl := Except.ok.inj h
    exact List.sublist_append_left _ _
  | cons l ls ih =>
    rw [List.foldlM_cons] at h
    cases hstep : st.step l with
    | error e =>
      rw [hstep] at h
      cases h
    | ok st₁ =>
      rw [hstep] at h
      have hfirst := kept_step (step_eq_ok_iff.mp hstep) hlines
      -- what is kept comes from the text, so the next step can be told from its pieces as well
      have hlines₁ : ∀ l' ∈ st₁.kept, '\n' ∉ l' := by
        intro l' hl'
        rcases List.mem_append.mp (hfirst.subset hl') with hl' | hl'
        · exact hlines l' hl'
        · have hl' := (keptLines_sublist [l]).subset hl'
          exact hls l' (by simp [List.mem_singleton.mp hl'])
      have hrest := ih h hlines₁ fun l' hl' => hls l' (by simp [hl'])
      rw [keptLines_cons, ← List.append_assoc]
      exact hrest.trans (hfirst.append_right _)

end State

/-- The patches of a diff hold, in order, only lines of the diff that are read as lines of
hunks. -/
theorem patchLines_split {text : List Char} {files : List FileChange}
    (h : split text = .ok files) : (files.flatMap FileChange.patchLines).Sublist
      (keptLines (Text.lines (unifyLineEnds text))) := by
  rw [split] at h
  cases hrun : (Text.lines (unifyLineEnds text)).foldlM State.step {} with
  | error e =>
    rw [hrun] at h
    cases h
  | ok st =>
    rw [hrun] at h
    obtain rfl := Except.ok.inj h
    have hlines := Text.not_mem_lines (unifyLineEnds text)
    have hkept := State.kept_run hrun (fun l hl => nomatch hl) hlines
    refine (State.patchLines_result fun l hl => ?_).trans hkept
    exact hlines l ((keptLines_sublist _).subset (hkept.subset hl))

end Diff
end TestImpact
