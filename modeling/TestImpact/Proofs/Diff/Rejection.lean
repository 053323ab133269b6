import TestImpact.Proofs.Diff.Conservation
import TestImpact.Proofs.Diff.HunkHeader
import TestImpact.Proofs.Lists
import TestImpact.Proofs.Results

/-!
# Diffs that are rejected

Splitting fails at the first line of a section that is marked as the header of a hunk and does not
pass for one (`split_eq_error_iff`), and at nothing else. It never fails at a well-formed header,
but it lets malformed ones pass, such as a header without the range of the new file whose text has a
word with a plus sign (`rejectsMalformed_iff`).
-/

namespace TestImpact.Diff

variable {l : List Char}

/-! ## Lines that begin a section, and headers -/

/-- Whether a line begins a section where none is open. -/
def BeginsSection (l : List Char) : Prop := "diff --git ".toList <+: l ∨ "--- ".toList <+: l

instance : DecidablePred BeginsSection :=
  fun l => inferInstanceAs (Decidable ("diff --git ".toList <+: l ∨ "--- ".toList <+: l))

/-- Whether a line is marked as the header of a hunk. -/
def IsMarkedHeader (l : List Char) : Prop := "@@".toList <+: l

instance : DecidablePred IsMarkedHeader := fun l => inferInstanceAs (Decidable ("@@".toList <+: l))

theorem Line.after?_eq_some_iff {start : String} {rest : List Char} :
    Line.after? start l = some rest ↔ l = start.toList ++ rest :=
  Text.isPrefixOf?_eq_some_iff

/-- What is read as the beginning of a section is a line that begins one. -/
theorem begins_read_iff : (Line.read l).begins = true ↔ BeginsSection l := by
  constructor
  · intro h
    unfold Line.read at h
    split at h
    · next rest hrest => exact .inl ⟨rest, (Line.after?_eq_some_iff.mp hrest).symm⟩
    · split at h
      · next rest hrest => exact .inr ⟨rest, (Line.after?_eq_some_iff.mp hrest).symm⟩
      · exfalso
        grind [Line.begins]
  · rintro (⟨rest, rfl⟩ | ⟨rest, rfl⟩)
    · rfl
    · rfl

/-- A line is read as the header of a hunk by its marks, and judged by its ranges. -/
theorem read_eq_hunkHeader_iff {valid : Bool} :
    Line.read l = .hunkHeader valid ↔ IsMarkedHeader l ∧ isHunkHeader l = valid := by
  constructor
  · intro h
    unfold Line.read at h
    grind [Line.startsWith, IsMarkedHeader]
  · rintro ⟨⟨rest, rfl⟩, rfl⟩
    rfl

/-! ## One line -/

namespace Section

/-- A section refuses the headers of hunks that have no valid range, and nothing else. -/
theorem step_eq_error_iff {s : Section} {read : Line} {e : DiffError} :
    s.step l read = .error e ↔
      read = .hunkHeader false ∧ e = .malformedHunkHeader (String.ofList l) := by
  cases read with
  | hunkHeader valid =>
    cases valid with
    | false => simp [step, eq_comm]
    | true => simp [step]
  | _ => simp [step]

end Section

namespace State

variable {st st' : State} {e : DiffError}

/-- The only line that is an error is a header within a section that does not pass for one. -/
theorem step_eq_error_iff : st.step l = .error e ↔
    st.current.isSome = true ∧ Line.read l = .hunkHeader false ∧
      e = .malformedHunkHeader (String.ofList l) := by
  rw [step]
  split
  · next hread => simp [hread]
  · next hread hs => split <;> simp [hread]
  · next hread hs => simp [hread]
  · next hs hnotStart hnotOld => simp [hs]
  · next s hs hnotStart hnotOld =>
    rw [bind_eq_error_iff, Section.step_eq_error_iff]
    simp [hs, pure, Except.pure]

/-- A section is open after a line if one was open before or the line begins one. -/
theorem current_step (h : st.step l = .ok st') :
    st'.current.isSome = true ↔ st.current.isSome = true ∨ BeginsSection l := by
  rw [← begins_read_iff]
  cases step_eq_ok_iff.mp h with
  | sectionStart hread => simp [begin, hread, Line.begins]
  | bareStart hread => simp [begin, hread, Line.begins]
  | oldFile hread hs => simp [hread, hs, Line.begins]
  | outside hread hs => simp [hread, hs]
  | inside hread hs => simp [hs]

end State

/-! ## Whole diffs -/

/-- A line is rejected after some others: it stands in a section, it is marked as the header of a
hunk, and it does not tell where the hunk begins. -/
structure Rejected (before : List (List Char)) (l : List Char) : Prop where
  inSection : ∃ b ∈ before, BeginsSection b
  marked : IsMarkedHeader l
  startless : ¬ ∃ n, StartsAt l n

namespace State

variable {st st' : State} {e : DiffError} {ls : List (List Char)}

/-- A section is open once a line has begun one. -/
theorem current_run (h : ls.foldlM step {} = .ok st) :
    st.current.isSome = true ↔ ∃ b ∈ ls, BeginsSection b := by
  induction ls using List.reverseRecOn generalizing st with
  | nil =>
    cases h
    simp
  | append_singleton ls l ih =>
    obtain ⟨mid, hmid, hstep⟩ := foldlM_concat_eq_ok_iff.mp h
    rw [current_step hstep, ih hmid]
    simp [or_and_right, exists_or]

/-- After a run, a line is refused just where its place in the text lets it be. -/
theorem step_run_eq_error_iff (h : ls.foldlM step {} = .ok st) :
    st.step l = .error e ↔ Rejected ls l ∧ e = .malformedHunkHeader (String.ofList l) := by
  rw [step_eq_error_iff, current_run h, read_eq_hunkHeader_iff, ← Bool.not_eq_true,
    isHunkHeader_iff]
  constructor
  · rintro ⟨hsection, ⟨hmarked, hstartless⟩, he⟩
    exact ⟨⟨hsection, hmarked, hstartless⟩, he⟩
  · rintro ⟨⟨hsection, hmarked, hstartless⟩, he⟩
    exact ⟨hsection, ⟨hmarked, hstartless⟩, he⟩

/-- A run goes through if none of its lines is rejected after those before it. -/
theorem run_eq_ok_iff : (∃ st, ls.foldlM step {} = .ok st) ↔
    ∀ before l after, ls = before ++ l :: after → ¬ Rejected before l := by
  -- from the end of the text: the last line is judged by what the lines before it lead to
  induction ls using List.reverseRecOn with
  | nil =>
    constructor
    · intro _ before l after hls
      simp at hls
    · intro _
      exact ⟨{}, rfl⟩
  | append_singleton ls last ih =>
    constructor
    · rintro ⟨st, hrun⟩ before l after heq hrejected
      obtain ⟨mid, hmid, hstep⟩ := foldlM_concat_eq_ok_iff.mp hrun
      rcases concat_eq_append_cons heq with ⟨rfl, rfl, rfl⟩ | ⟨init, rfl, rfl⟩
      · have herror := (step_run_eq_error_iff hmid).mpr ⟨hrejected, rfl⟩
        rw [hstep] at herror
        cases herror
      · exact ih.mp ⟨mid, hmid⟩ before l init rfl hrejected
    · intro hnone
      have hls : ∀ before l after, ls = before ++ l :: after → ¬ Rejected before l := by
        rintro before l after rfl
        exact hnone before l (after ++ [last]) (by simp)
      obtain ⟨mid, hmid⟩ := ih.mpr hls
      cases hstep : mid.step last with
      | ok st => exact ⟨st, foldlM_concat_eq_ok_iff.mpr ⟨mid, hmid, hstep⟩⟩
      | error e =>
        have hrejected := ((step_run_eq_error_iff hmid).mp hstep).1
        exact absurd hrejected (hnone ls last [] rfl)

end State

/-- Splitting fails at the first line that is rejected, and the error names it. -/
theorem split_eq_error_iff {text : List Char} {e : DiffError} : split text = .error e ↔
    ∃ before l after, Text.lines (unifyLineEnds text) = before ++ l :: after ∧
      Rejected before l ∧
      (∀ front earlier rest, before = front ++ earlier :: rest → ¬ Rejected front earlier) ∧
      e = .malformedHunkHeader (String.ofList l) := by
  have hrun : split text = .error e ↔
      (Text.lines (unifyLineEnds text)).foldlM State.step {} = .error e := by
    rw [split, bind_eq_error_iff]
    simp [pure, Except.pure]
  rw [hrun, foldlM_eq_error_iff]
  constructor
  · rintro ⟨before, l, after, mid, hlines, hmid, hstep⟩
    obtain ⟨hrejected, he⟩ := (State.step_run_eq_error_iff hmid).mp hstep
    exact ⟨before, l, after, hlines, hrejected, State.run_eq_ok_iff.mp ⟨mid, hmid⟩, he⟩
  · rintro ⟨before, l, after, hlines, hrejected, hfirst, he⟩
    obtain ⟨mid, hmid⟩ := State.run_eq_ok_iff.mpr hfirst
    exact ⟨before, l, after, mid, hlines, hmid,
      (State.step_run_eq_error_iff hmid).mpr ⟨hrejected, he⟩⟩

/-- A line of a diff is marked as the header of a hunk and stands in a section. -/
def HeaderIn (text l : List Char) : Prop :=
  IsMarkedHeader l ∧ ∃ before after, Text.lines (unifyLineEnds text) = before ++ l :: after ∧
    ∃ b ∈ before, BeginsSection b

/-- A diff is rejected if a header in one of its sections does not tell where the hunk begins, and
for no other reason. -/
theorem exists_split_error_iff {text : List Char} :
    (∃ line, split text = .error (.malformedHunkHeader line)) ↔
      ∃ l, HeaderIn text l ∧ ¬ ∃ n, StartsAt l n := by
  constructor
  · rintro ⟨line, hsplit⟩
    obtain ⟨before, l, after, hlines, hrejected, -⟩ := split_eq_error_iff.mp hsplit
    exact ⟨l, ⟨hrejected.marked, before, after, hlines, hrejected.inSection⟩, hrejected.startless⟩
  · rintro ⟨l, ⟨hmarked, before, after, hlines, hsection⟩, hstartless⟩
    cases hsplit : split text with
    | error e =>
      obtain ⟨-, l', -, -, -, -, rfl⟩ := split_eq_error_iff.mp hsplit
      exact ⟨_, rfl⟩
    | ok files =>
      have hrun : ∃ st, (Text.lines (unifyLineEnds text)).foldlM State.step {} = .ok st := by
        obtain ⟨st, hst, -⟩ := bind_eq_ok_iff.mp hsplit
        exact ⟨st, hst⟩
      exact absurd ⟨hsection, hmarked, hstartless⟩
        (State.run_eq_ok_iff.mp hrun before l after hlines)

/-- The promise that a diff is rejected if and only if a header in one of its sections is not of
the documented form. -/
def RejectsMalformed (text : List Char) : Prop :=
  (∃ line, split text = .error (.malformedHunkHeader line)) ↔
    ∃ l, HeaderIn text l ∧ ¬ ∃ n, IsHeader l n

/-- **When malformed headers are rejected.** A diff is rejected exactly if some header in a section
does not tell where its hunk begins, which well-formed headers do. So the promise holds of a diff if
and only if one of its headers is such, or all of them are well-formed. -/
theorem rejectsMalformed_iff (text : List Char) :
    ((∃ line, split text = .error (.malformedHunkHeader line)) ↔
      ∃ l, HeaderIn text l ∧ ¬ ∃ n, StartsAt l n) ∧
    (∀ l n, IsHeader l n → StartsAt l n) ∧
    (RejectsMalformed text ↔
      (∃ l, HeaderIn text l ∧ ¬ ∃ n, StartsAt l n) ∨ ∀ l, HeaderIn text l → ∃ n, IsHeader l n) := by
  refine ⟨exists_split_error_iff, fun l n => IsHeader.startsAt, ?_⟩
  have hmalformed : (∃ l, HeaderIn text l ∧ ¬ ∃ n, StartsAt l n) →
      ∃ l, HeaderIn text l ∧ ¬ ∃ n, IsHeader l n := by
    rintro ⟨l, hl, hstartless⟩
    exact ⟨l, hl, fun ⟨n, hn⟩ => hstartless ⟨n, hn.startsAt⟩⟩
  rw [RejectsMalformed, exists_split_error_iff]
  constructor
  · intro hpromise
    by_cases hall : ∀ l, HeaderIn text l → ∃ n, IsHeader l n
    · exact .inr hall
    · left
      rw [not_forall] at hall
      obtain ⟨l, hl⟩ := hall
      rw [Classical.not_imp] at hl
      exact hpromise.mpr ⟨l, hl⟩
  · rintro (hrejected | hall)
    · exact ⟨hmalformed, fun _ => hrejected⟩
    · refine ⟨hmalformed, ?_⟩
      rintro ⟨l, hl, hnot⟩
      exact absurd (hall l hl) hnot

/-- A header that lacks the range of the new file, with a plus sign in its text. -/
def rangelessHeader : List Char := "@@ -1,2 @@ sum = a +5".toList

/-- A diff with that header. -/
def rangelessDiff : List Char :=
  "diff --git a/A.java b/A.java\n--- a/A.java\n+++ b/A.java\n".toList ++ rangelessHeader ++
    "\n-a();\n".toList

theorem not_isHeader_rangeless : ¬ ∃ n, IsHeader rangelessHeader n := by
  rintro ⟨n, old, m, new, context, hold, -, hline⟩
  have hlayout : rangelessHeader =
      "@@ -".toList ++ ("1,2".toList ++ ' ' :: "@@ sum = a +5".toList) := by
    decide
  simp only [hlayout, List.append_assoc] at hline
  have hcut : "1,2".toList ++ ' ' :: "@@ sum = a +5".toList =
      old ++ ' ' :: ('+' :: (new ++ (" @@".toList ++ context))) :=
    List.append_cancel_left hline
  -- both ranges of the old file end at the first blank, where no plus sign follows
  have hnotBlank : ∀ c ∈ old, decide (c ≠ ' ') = true := by
    intro c hc
    exact decide_eq_true fun heq => absurd (hold.unbroken c hc) (by rw [heq]; decide)
  have hrest := congrArg (List.dropWhile (· ≠ ' ')) hcut
  rw [List.dropWhile_append_of_pos hnotBlank] at hrest
  exact absurd (congrArg (·[1]?) hrest) (by simp)

/-- A header without a range of the new file passes for one. -/
theorem not_rejectsMalformed_rangeless : ¬ RejectsMalformed rangelessDiff := by
  have hfiles : split rangelessDiff = .ok [{
      filename := "A.java", patch := "@@ -1,2 @@ sum = a +5\n-a();", status := "modified" }] := by
    decide
  have hheader : HeaderIn rangelessDiff rangelessHeader := by
    refine ⟨⟨" -1,2 @@ sum = a +5".toList, by decide⟩, ["diff --git a/A.java b/A.java".toList,
      "--- a/A.java".toList, "+++ b/A.java".toList], ["-a();".toList], by decide, ?_⟩
    exact ⟨_, List.mem_cons_self, .inl ⟨"a/A.java b/A.java".toList, by decide⟩⟩
  intro hpromise
  obtain ⟨line, hsplit⟩ := hpromise.mpr ⟨rangelessHeader, hheader, not_isHeader_rangeless⟩
  rw [hfiles] at hsplit
  cases hsplit

end TestImpact.Diff
