import TestImpact.Proofs.Diff.HunkHeader
import TestImpact.Proofs.Diff.Written
import TestImpact.Proofs.Text.Affix

/-!
# What written lines are read as

Each line of a written section is read as what it was written for, with one exception: a line of a
hunk whose marker and text happen to begin like the header of a file (`LooksLikeHeader`).
-/

namespace TestImpact.Diff

/-! ## Paths -/

theorem map_slash {s : List Char} (h : '\\' ∉ s) :
    (s.map fun c => if c = '\\' then '/' else c) = s := by
  induction s with
  | nil => rfl
  | cons c s ih =>
    have hc : c ≠ '\\' := fun hc => h (by simp [hc])
    rw [List.map_cons, if_neg hc, ih fun hs => h (by simp [hs])]

/-- A path without the side that it begins with. -/
def dropSide : List Char → List Char
  | 'b' :: '/' :: rest => rest
  | 'a' :: '/' :: rest => rest
  | path => path

/-- A path without a step `./` at its start. -/
def dropStep : List Char → List Char
  | '.' :: '/' :: rest => rest
  | path => path

/-- Normalising takes blanks, backslashes, a side and a leading step off, in this order. -/
theorem normalizePath_eq (path : List Char) : normalizePath path =
    dropStep (dropSide ((Text.trim path).map fun c => if c = '\\' then '/' else c)) :=
  rfl

theorem dropSide_of_sideless {path : List Char} (ha : ¬ "a/".toList <+: path)
    (hb : ¬ "b/".toList <+: path) : dropSide path = path := by
  unfold dropSide
  split
  · exact absurd ⟨_, rfl⟩ hb
  · exact absurd ⟨_, rfl⟩ ha
  · rfl

theorem dropStep_of_stepless {path : List Char} (h : ¬ "./".toList <+: path) :
    dropStep path = path := by
  unfold dropStep
  split
  · exact absurd ⟨_, rfl⟩ h
  · rfl

theorem length_dropStep_le (path : List Char) : (dropStep path).length ≤ path.length := by
  unfold dropStep
  split
  · exact Nat.le_add_right _ 2
  · exact Nat.le_refl _

/-- A path with a side in front is not the path of an absent file. -/
theorem headerPath?_side {side : Char} {s : List Char} (hside : side ≠ '/')
    (h : Text.Unbroken (side :: s)) :
    headerPath? (side :: s) = some (String.ofList (normalizePath (side :: s))) := by
  have hne : String.ofList (side :: s) ≠ "/dev/null" := by
    intro heq
    have hchars : side :: s = "/dev/null".toList := by
      rw [← heq, String.toList_ofList]
    exact hside (by simpa using congrArg List.head? hchars)
  rw [headerPath?, h.trim_eq, if_neg hne]

theorem newSide_unbroken {path : List Char} (h : Text.Unbroken path) :
    Text.Unbroken ("b/".toList ++ path) :=
  Text.unbroken_append.mpr ⟨by decide, h⟩

section Paths

variable {path : List Char} (hunbroken : Text.Unbroken path) (hslashed : '\\' ∉ path)
  (hhere : ¬ "./".toList <+: path)

include hunbroken hslashed hhere

/-- A path on the new side is what is left of it when the side is taken off. -/
theorem normalizePath_newSide : normalizePath ("b/".toList ++ path) = path := by
  have hslashes : '\\' ∉ "b/".toList ++ path :=
    fun hc => (List.mem_append.mp hc).elim (by decide) hslashed
  rw [normalizePath_eq, (newSide_unbroken hunbroken).trim_eq, map_slash hslashes]
  exact dropStep_of_stepless hhere

/-- A path without a side is left alone exactly if it does not begin like one that has a side. -/
theorem normalizePath_eq_self_iff :
    normalizePath path = path ↔ ¬ "a/".toList <+: path ∧ ¬ "b/".toList <+: path := by
  rw [normalizePath_eq, hunbroken.trim_eq, map_slash hslashed]
  constructor
  · intro h
    -- what is left when a side is taken off is too short to be the path
    constructor
    · rintro ⟨rest, rfl⟩
      have hrest : dropStep rest = "a/".toList ++ rest := h
      have hlength := length_dropStep_le rest
      rw [hrest, List.length_append] at hlength
      have hside : "a/".toList.length = 2 := rfl
      omega
    · rintro ⟨rest, rfl⟩
      have hrest : dropStep rest = "b/".toList ++ rest := h
      have hlength := length_dropStep_le rest
      rw [hrest, List.length_append] at hlength
      have hside : "b/".toList.length = 2 := rfl
      omega
  · rintro ⟨ha, hb⟩
    rw [dropSide_of_sideless ha hb, dropStep_of_stepless hhere]

/-- The header of the new file tells its path. -/
theorem read_newSide :
    Line.read ("+++ ".toList ++ ("b/".toList ++ path)) = .newFile (some (String.ofList path)) := by
  have hpath : normalizePath ("b/".toList ++ path) = path :=
    normalizePath_newSide hunbroken hslashed hhere
  rw [← congrArg String.ofList hpath]
  exact congrArg Line.newFile (headerPath?_side (by decide) (newSide_unbroken hunbroken))

end Paths

/-- The first line of a section tells the second word behind its mark, which is the path on the new
side unless the old path has white space in it. -/
theorem read_sectionStart (old : List Char) {new : List Char} (hne : new ≠ [])
    (hnew : Text.Unbroken new) :
    Line.read ("diff --git ".toList ++ ("a/".toList ++ old ++ ' ' :: new)) = .sectionStart
      (some (String.ofList
        (normalizePath ((Text.words Text.isBlank ("a/".toList ++ old))[1]?.getD new)))) := by
  have hread : Line.read ("diff --git ".toList ++ ("a/".toList ++ old ++ ' ' :: new)) =
      .sectionStart ((Text.words Text.isBlank ("a/".toList ++ old ++ ' ' :: new))[1]?.map
        fun p => String.ofList (normalizePath p)) := rfl
  have hfirst : Text.words Text.isBlank ("a/".toList ++ old) ≠ [] :=
    Text.words_cons_ne_nil (by decide) _
  obtain ⟨first, rest, hold⟩ := List.exists_cons_of_ne_nil hfirst
  rw [hread, Text.words_append_blank (by decide), Text.words_of_not_blank hne hnew, hold]
  cases rest <;> rfl

example : Line.read "diff --git a/my Old.java b/New.java".toList =
    .sectionStart (some "Old.java") := by
  decide

namespace FileSection

variable (f : FileSection)

theorem oldSide_unbroken : Text.Unbroken ("a/".toList ++ f.oldPath) :=
  Text.unbroken_append.mpr ⟨by decide, f.oldPath_unbroken⟩

/-- The path of a section is what is left of it on the new side. -/
theorem normalizePath_side : normalizePath ("b/".toList ++ f.path) = f.path :=
  normalizePath_newSide f.path_unbroken f.path_slashed f.path_not_here

theorem normalizePath_path (h : f.kind = .renamed) : normalizePath f.path = f.path :=
  (normalizePath_eq_self_iff f.path_unbroken f.path_slashed f.path_not_here).mpr
    (f.renamed_sideless h)

/-! ## Headers -/

/-- The line that starts a section gives the path of the section. -/
theorem read_start : Line.read f.start = .sectionStart (some (String.ofList f.path)) := by
  have hwords : Text.words Text.isBlank ("a/".toList ++ f.oldPath) = ["a/".toList ++ f.oldPath] :=
    Text.words_of_not_blank (by simp) f.oldSide_unbroken
  have hread := read_sectionStart f.oldPath (by simp) (newSide_unbroken f.path_unbroken)
  have hsecond : ["a/".toList ++ f.oldPath][1]? = none := rfl
  rw [hwords, hsecond, Option.getD_none, f.normalizePath_side] at hread
  exact hread

/-- The path that the header of the old file tells. -/
def oldPath? : Option String :=
  match f.kind with
  | .added _ => none
  | _ => some (String.ofList (normalizePath ("a/".toList ++ f.oldPath)))

/-- The path that the header of the new file tells. -/
def newPath? : Option String :=
  match f.kind with
  | .deleted _ => none
  | _ => some (String.ofList f.path)

/-- The line of the old file gives the old path, or none for a new file. -/
theorem read_oldLine : Line.read f.oldLine = .oldFile f.oldPath? := by
  have hside : Line.read ("--- ".toList ++ ("a/".toList ++ f.oldPath)) =
      .oldFile (some (String.ofList (normalizePath ("a/".toList ++ f.oldPath)))) :=
    congrArg Line.oldFile (headerPath?_side (by decide) f.oldSide_unbroken)
  cases hkind : f.kind with
  | added mode =>
    simp only [oldLine, oldPath?, hkind]
    decide
  | _ => simp only [oldLine, oldPath?, hkind, hside]

/-- The line of the new file gives the new path, or none for a removed file. -/
theorem read_newLine : Line.read f.newLine = .newFile f.newPath? := by
  have hside := read_newSide f.path_unbroken f.path_slashed f.path_not_here
  cases hkind : f.kind with
  | deleted mode =>
    simp only [newLine, newPath?, hkind]
    decide
  | _ => simp only [newLine, newPath?, hkind, hside]

theorem read_renameLine (h : f.kind = .renamed) :
    Line.read ("rename to ".toList ++ f.path) = .renamedTo (String.ofList f.path) :=
  congrArg (fun p => Line.renamedTo (String.ofList p)) (f.normalizePath_path h)

end FileSection

/-! ## Hunks -/

/-- The header of a written hunk is read as a valid one. -/
theorem Hunk.read_header (h : Hunk) : Line.read h.header = .hunkHeader true := by
  have hold : Text.Unbroken (Nat.toDigits 10 h.oldStart ++ ',' :: Nat.toDigits 10 h.oldCount) :=
    (Text.unbroken_cons.mp (range_unbroken (by decide : Text.isBlank '-' = false) _ _)).2
  have hnew : Text.Unbroken (Nat.toDigits 10 h.newStart ++ ',' :: Nat.toDigits 10 h.newCount) :=
    (Text.unbroken_cons.mp (range_unbroken (by decide : Text.isBlank '+' = false) _ _)).2
  have hnumber : IsNumber (Nat.toDigits 10 h.newStart) h.newStart :=
    ⟨Decimal.digits?_toDigits h.newStart, h.newStart_lt⟩
  have hlayout : h.header =
      "@@ -".toList ++ (Nat.toDigits 10 h.oldStart ++ ',' :: Nat.toDigits 10 h.oldCount) ++
        " +".toList ++ (Nat.toDigits 10 h.newStart ++ ',' :: Nat.toDigits 10 h.newCount) ++
        ' ' :: ("@@".toList ++ h.heading) := by
    simp [Hunk.header, range]
  have hstarts : StartsAt h.header h.newStart := by
    rw [hlayout]
    apply startsAt_of_ranges hold hnew
    rw [hnumber.takeWhile_eq, List.takeWhile_cons_of_neg (by simp), List.append_nil]
    exact hnumber.natural?
  exact congrArg Line.hunkHeader (isHunkHeader_iff.mpr ⟨h.newStart, hstarts⟩)

/-- Whether a line begins like the header that names the old or the new file. -/
def LooksLikeHeader (l : List Char) : Prop := "--- ".toList <+: l ∨ "+++ ".toList <+: l

instance : DecidablePred LooksLikeHeader :=
  fun l => inferInstanceAs (Decidable ("--- ".toList <+: l ∨ "+++ ".toList <+: l))

/-- A marked line says nothing about files unless it begins like a header. -/
theorem read_of_isMarked {l : List Char} (hmarked : IsMarked l) (h : ¬ LooksLikeHeader l) :
    Line.read l = .plain := by
  obtain ⟨c, hc, text, rfl⟩ := hmarked
  have hold : Line.after? "--- " (c :: text) = none :=
    Text.isPrefixOf?_eq_none_iff.mpr fun hl => h (.inl hl)
  have hnew : Line.after? "+++ " (c :: text) = none :=
    Text.isPrefixOf?_eq_none_iff.mpr fun hl => h (.inr hl)
  rw [Line.read, hold, hnew]
  simp only [List.mem_cons, List.not_mem_nil, or_false] at hc
  rcases hc with rfl | rfl | rfl | rfl <;> rfl

theorem read_of_looksLikeHeader {l : List Char} (h : LooksLikeHeader l) :
    (∃ path, Line.read l = .oldFile path) ∨ ∃ path, Line.read l = .newFile path := by
  rcases h with ⟨text, rfl⟩ | ⟨text, rfl⟩
  · exact .inl ⟨headerPath? text, rfl⟩
  · exact .inr ⟨headerPath? text, rfl⟩

end TestImpact.Diff
