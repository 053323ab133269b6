import TestImpact.Patch.Detector
import TestImpact.Proofs.Diff.RoundTrip
import TestImpact.Proofs.Text.Affix

/-!
# Sections are independent

A line that begins with `diff --git ` ends the section before it and begins a new one, whatever has
been read before. Of all that the splitter remembers only the files of earlier sections are left,
and no step looks at them (`State.step_after`). So a diff may be cut before such a line: its parts
give the files that they give by themselves, and the first of them that is malformed decides
(`split_append`).
-/

namespace TestImpact.Diff

/-! ## Where the parts meet -/

/-- Only a carriage return at the end of a text could be drawn to what follows it. -/
theorem unifyLineEnds_append {front : List Char} (h : front.getLast? ≠ some '\r')
    (rest : List Char) :
    unifyLineEnds (front ++ rest) = unifyLineEnds front ++ unifyLineEnds rest := by
  -- along the front, two characters at a time: only its end could form a pair with the rest
  fun_induction unifyLineEnds front with
  | case1 => rfl
  | case2 front ih =>
    have hlast : front.getLast? ≠ some '\r' := by
      cases front with
      | nil => simp
      | cons c front => simpa [List.getLast?_cons_cons] using h
    simp [unifyLineEnds, ih hlast]
  | case3 c front hpair ih =>
    cases front with
    | nil =>
      have hc : c ≠ '\r' := by simpa using h
      simp [unifyLineEnds, hc]
    | cons c' front =>
      have hlast : (c' :: front).getLast? ≠ some '\r' := by
        simpa [List.getLast?_cons_cons] using h
      have hrest : unifyLineEnds (c :: c' :: (front ++ rest)) =
          c :: unifyLineEnds (c' :: (front ++ rest)) := by
        rw [unifyLineEnds]
        rintro tail rfl heq
        exact hpair front rfl (by rw [(List.cons.inj heq).1])
      simpa [hrest] using ih hlast

/-- A text that ends with a line feed still does with unified line ends. -/
theorem getLast?_unifyLineEnds {s : List Char} (h : s.getLast? = some '\n') :
    (unifyLineEnds s).getLast? = some '\n' := by
  fun_induction unifyLineEnds s with
  | case1 => exact h
  | case2 s ih =>
    cases s with
    | nil => rfl
    | cons c s =>
      have hlast := ih (by simpa [List.getLast?_cons_cons] using h)
      simp [List.getLast?_cons, hlast]
  | case3 c s _ ih =>
    cases s with
    | nil => simpa [unifyLineEnds] using h
    | cons c' s =>
      have hlast := ih (by simpa [List.getLast?_cons_cons] using h)
      simp [List.getLast?_cons, hlast]

/-- The lines of a diff are those of its parts if the first part is made of whole lines. -/
theorem lines_unifyLineEnds_append {front : List Char} (h : Text.WholeLines front)
    (rest : List Char) : Text.lines (unifyLineEnds (front ++ rest)) =
      Text.lines (unifyLineEnds front) ++ Text.lines (unifyLineEnds rest) := by
  obtain rfl | hfeed := h
  · rfl
  have hlast : front.getLast? = some '\n' := by
    obtain ⟨t, rfl⟩ := hfeed
    exact List.getLast?_concat
  have hunified : Text.WholeLines (unifyLineEnds front) := by
    obtain ⟨t, ht⟩ := List.getLast?_eq_some_iff.mp (getLast?_unifyLineEnds hlast)
    exact .inr ⟨t, ht.symm⟩
  rw [unifyLineEnds_append (by simp [hlast]), Text.lines_append hunified]

/-- What a line begins with stays there when the line is finished, for only a carriage return at its
end is taken off. -/
theorem prefix_finishLine {start : List Char} (h : start.getLast? ≠ some '\r') (line : List Char) :
    start <+: Text.finishLine (line ++ start.reverse) := by
  rw [Text.finishLine.eq_def]
  split
  · next l heq =>
    cases line with
    | nil =>
      have hlast : start.reverse.head? = some '\r' := congrArg List.head? heq
      rw [List.head?_reverse] at hlast
      exact absurd hlast h
    | cons c line =>
      obtain ⟨-, rfl⟩ := List.cons.inj heq
      simp
  · simp

/-- The first line begins with what has been read of it. -/
theorem exists_linesFrom {start : List Char} (hne : start ≠ []) (h : start.getLast? ≠ some '\r')
    (line s : List Char) :
    ∃ l ls, Text.linesFrom (line ++ start.reverse) s = l :: ls ∧ start <+: l := by
  induction s generalizing line with
  | nil => exact ⟨start ++ line.reverse, [], by simp [Text.linesFrom, hne], start.prefix_append _⟩
  | cons c s ih =>
    rw [Text.linesFrom]
    split
    · exact ⟨_, _, rfl, prefix_finishLine h line⟩
    · exact ih (c :: line)

/-- The words that begin a section of a diff. -/
def sectionMark : List Char := "diff --git ".toList

/-- A diff that begins like a section has a first line that begins one. -/
theorem exists_sectionStart {text : List Char} (h : sectionMark <+: text) :
    ∃ l ls path, Text.lines (unifyLineEnds text) = l :: ls ∧ Line.read l = .sectionStart path := by
  obtain ⟨rest, rfl⟩ := h
  have hunified : unifyLineEnds (sectionMark ++ rest) = sectionMark ++ unifyLineEnds rest :=
    unifyLineEnds_append (by decide) rest
  have hlines : Text.lines (sectionMark ++ unifyLineEnds rest) =
      Text.linesFrom sectionMark.reverse (unifyLineEnds rest) := rfl
  obtain ⟨l, ls, hl, tail, rfl⟩ :=
    exists_linesFrom (show sectionMark ≠ [] by decide) (by decide) [] (unifyLineEnds rest)
  exact ⟨_, ls, _, by rw [hunified, hlines]; exact hl, rfl⟩

/-! ## What earlier sections leave behind -/

namespace State

/-- The state after some more files, which come before all others. -/
def after (st : State) (earlier : List FileChange) : State :=
  { st with files := st.files ++ earlier.reverse }

theorem result_after (st : State) (earlier : List FileChange) :
    (st.after earlier).result = earlier ++ st.result := by
  simp [after, result]

theorem begin_after (st : State) (earlier : List FileChange) (next : Section) :
    (st.after earlier).begin next = (st.begin next).after earlier := by
  simp [after, begin]

/-- A section that begins knows nothing of those before it. -/
theorem begin_eq_after (st : State) (next : Section) :
    st.begin next = (begin {} next).after st.result := by
  cases hfinish : st.current.bind (·.finish?) <;> simp [begin, after, result, hfinish]

/-- Files of earlier sections are passed on by every step, and no step looks at them. -/
theorem step_after (st : State) (earlier : List FileChange) (l : List Char) :
    (st.after earlier).step l = (st.step l).map (·.after earlier) := by
  have hcurrent : (st.after earlier).current = st.current := rfl
  unfold step
  rw [hcurrent]
  split
  · rw [begin_after]
    rfl
  · -- the header of an old file begins a section only where a hunk stands before it
    split
    · rw [begin_after]
      rfl
    · rfl
  · rw [begin_after]
    rfl
  · rfl
  · next s _ _ _ =>
    cases hstep : s.step l (Line.read l) with
    | error e => rfl
    | ok s' => rfl

/-- A run does the same after any earlier records, and faults where it faulted without them. -/
theorem run_after (st : State) (earlier : List FileChange) (ls : List (List Char)) :
    ls.foldlM step (st.after earlier) = (ls.foldlM step st).map (·.after earlier) := by
  induction ls generalizing st with
  | nil => rfl
  | cons l ls ih =>
    rw [List.foldlM_cons, List.foldlM_cons, step_after]
    cases hstep : st.step l with
    | error e => rfl
    | ok st' => exact ih st'

/-- From the first line of a section on, a run is the one from the start, after the files so far. -/
theorem run_sectionStart (st : State) {l : List Char} {path : Option String}
    (hread : Line.read l = .sectionStart path) (ls : List (List Char)) :
    (l :: ls).foldlM step st = ((l :: ls).foldlM step {}).map (·.after st.result) := by
  rw [run_cons (st.step_sectionStart hread), run_cons (step_sectionStart {} hread), begin_eq_after,
    run_after]

end State

/-! ## Diffs in parts -/

theorem detectAll_append (d : Patch.Detector) (files more : List FileChange) :
    d.detectAll (files ++ more) = d.detectAll files ++ d.detectAll more := by
  rw [Patch.Detector.detectAll, List.filter_append, List.flatMap_append]
  rfl

/-- **Sections are independent**: a diff whose second part begins with a section gives the error of
its first part, or else the error of its second part, or else the files of both in order; and then
it touches what its parts touch. -/
theorem split_append {front rest : List Char} (hfront : Text.WholeLines front)
    (hrest : sectionMark <+: rest) :
    split (front ++ rest) = (split front).bind (fun files => (split rest).map (files ++ ·)) ∧
      ∀ d : Patch.Detector, (split (front ++ rest)).map d.detectAll =
        (split front).bind fun files =>
          (split rest).map fun more => d.detectAll files ++ d.detectAll more := by
  obtain ⟨l, ls, path, hlines, hread⟩ := exists_sectionStart hrest
  have hsplit : split (front ++ rest) =
      (split front).bind (fun files => (split rest).map (files ++ ·)) := by
    rw [split, lines_unifyLineEnds_append hfront, hlines, List.foldlM_append, split, split, hlines]
    cases (Text.lines (unifyLineEnds front)).foldlM State.step {} with
    | error e => rfl
    | ok st =>
      -- whatever state the first part ends in, only its files matter from here on
      show ((l :: ls).foldlM State.step st).bind _ = _
      rw [st.run_sectionStart hread]
      cases (l :: ls).foldlM State.step {} with
      | error e => rfl
      | ok st' => exact congrArg Except.ok (st'.result_after st.result)
  refine ⟨hsplit, fun d => ?_⟩
  rw [hsplit]
  cases split front with
  | error e => rfl
  | ok files =>
    cases split rest with
    | error e => rfl
    | ok more => exact congrArg Except.ok (detectAll_append d files more)

/-- A bare diff that breaks off within a hunk. -/
def brokenOff : List Char :=
  "--- Old.java\n+++ Old.java\r\n@@ -1 +1,2 @@ void run() \x7B\n+  go();\n".toList

/-- A section of a file that is new. -/
def newFile : List Char :=
  ("diff --git a/New.java b/New.java\nnew file mode 100644\n--- /dev/null\n+++ b/New.java\n" ++
    "@@ -0,0 +1 @@\n+class New;\n").toList

/-- A diff that breaks off and the section of a new file: both records, and the methods of any
detector. -/
theorem split_append_brokenOff :
    Text.WholeLines brokenOff ∧ sectionMark <+: newFile ∧
      split (brokenOff ++ newFile) = .ok [
        ⟨"Old.java", some "@@ -1 +1,2 @@ void run() \x7B\n+  go();", some "modified"⟩,
        ⟨"New.java", some "@@ -0,0 +1 @@\n+class New;", some "added"⟩] ∧
      ∀ d : Patch.Detector, (split (brokenOff ++ newFile)).map d.detectAll =
        (split brokenOff).bind fun files =>
          (split newFile).map fun more => d.detectAll files ++ d.detectAll more := by
  have hfront : Text.WholeLines brokenOff := by decide
  have hrest : sectionMark <+: newFile := by decide
  obtain ⟨hsplit, hdetect⟩ := split_append hfront hrest
  refine ⟨hfront, hrest, ?_, hdetect⟩
  rw [hsplit]
  decide +kernel

end TestImpact.Diff
