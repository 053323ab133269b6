import TestImpact.Proofs.Patch.Hunks
import TestImpact.Proofs.Patch.Reported

/-!
# The order of reports

A walk lists the methods that it meets and marks those that are touched. One line adds at most one
method to the list, at its end (`Detector.opened_step`), and takes neither an entry nor a mark back.
So the methods are listed in the order of the lines that opened them first
(`Detector.pairwise_opened_run`), whenever they have been touched, and what has been reported for
the first lines of a patch stays reported in that order when more lines follow
(`Detector.result_run_append`).
-/

namespace TestImpact.Patch

namespace Detector

variable {d : Detector} {scan : Scan} {ls : List Line} {m n : String} {i : Nat}

/-! ## First openings -/

/-- The line at position `i` is the first one that opens the span of a method. -/
structure FirstOpens (d : Detector) (lines : List Line) (m : String) (i : Nat) : Prop where
  opener : ∃ l ∈ lines[i]?, d.Opens m l
  earliest : ∀ j < i, ∀ l ∈ lines[j]?, ¬ d.Opens m l

/-- The one method is opened before the other is opened for the first time. -/
def OpensBefore (d : Detector) (lines : List Line) (m n : String) : Prop :=
  ∃ i j, d.FirstOpens lines m i ∧ d.FirstOpens lines n j ∧ i < j

theorem FirstOpens.lt_length (h : d.FirstOpens ls m i) : i < ls.length := by
  obtain ⟨l, hl, -⟩ := h.opener
  exact (List.getElem?_eq_some_iff.mp hl).1

/-- Lines that follow have no say in what was opened first. -/
theorem FirstOpens.append (h : d.FirstOpens ls m i) (more : List Line) :
    d.FirstOpens (ls ++ more) m i := by
  have hlt := h.lt_length
  constructor
  · rw [List.getElem?_append_left hlt]
    exact h.opener
  · intro j hj
    rw [List.getElem?_append_left (Nat.lt_trans hj hlt)]
    exact h.earliest j hj

theorem OpensBefore.append (h : d.OpensBefore ls m n) (more : List Line) :
    d.OpensBefore (ls ++ more) m n := by
  obtain ⟨i, j, hm, hn, hlt⟩ := h
  exact ⟨i, j, hm.append more, hn.append more, hlt⟩

theorem firstOpens_concat {l : Line} (hls : ∀ l ∈ ls, ¬ d.Opens m l) (hl : d.Opens m l) :
    d.FirstOpens (ls ++ [l]) m ls.length := by
  constructor
  · exact ⟨l, List.getElem?_concat_length, hl⟩
  · intro j hj l' hl'
    rw [List.getElem?_append_left hj] at hl'
    exact hls l' (List.mem_of_getElem? hl')

/-- Of the lines that open a method one is the first. -/
theorem exists_firstOpens (h : ∃ l ∈ ls, d.Opens m l) : ∃ i, d.FirstOpens ls m i := by
  induction ls using List.reverseRecOn with
  | nil =>
    obtain ⟨l, hl, -⟩ := h
    cases hl
  | append_singleton ls l ih =>
    by_cases hls : ∃ l ∈ ls, d.Opens m l
    · obtain ⟨i, hi⟩ := ih hls
      exact ⟨i, hi.append [l]⟩
    · have hl : d.Opens m l := by
        obtain ⟨l', hl', hopens⟩ := h
        rcases List.mem_append.mp hl' with hold | hnew
        · exact absurd ⟨l', hold, hopens⟩ hls
        · rwa [List.mem_singleton.mp hnew] at hopens
      apply Exists.intro ls.length
      apply firstOpens_concat _ hl
      intro l' hl' hopens
      exact hls ⟨l', hl', hopens⟩

/-! ## Whole walks -/

/-- The methods are listed in the order of the lines that opened them first. -/
theorem pairwise_opened_run (d : Detector) (ls : List Line) :
    (d.run {} ls).opened.Pairwise (d.OpensBefore ls) := by
  induction ls using List.reverseRecOn with
  | nil => exact List.Pairwise.nil
  | append_singleton ls l ih =>
    have hold : (d.run {} ls).opened.Pairwise (d.OpensBefore (ls ++ [l])) :=
      ih.imp fun h => h.append [l]
    rw [run_append_singleton]
    rcases d.opened_step (d.run {} ls) l with hsame | ⟨m, hopens, hnew, hadd⟩
    · rw [hsame]
      exact hold
    · rw [hadd, List.pairwise_append]
      refine ⟨hold, List.pairwise_singleton _ m, ?_⟩
      intro n hn m' hm'
      rw [List.mem_singleton.mp hm']
      -- the new method is opened by the last line and by none before
      have hm : d.FirstOpens (ls ++ [l]) m ls.length := by
        apply firstOpens_concat _ hopens
        intro l' hl' hearlier
        exact hnew (mem_opened_run.mpr ⟨l', hl', hearlier⟩)
      obtain ⟨i, hi⟩ := exists_firstOpens (mem_opened_run.mp hn)
      exact ⟨i, ls.length, hi.append [l], hm, hi.lt_length⟩

/-- Methods are listed behind those that were listed before. -/
theorem prefix_opened_run (scan : Scan) (ls : List Line) :
    scan.opened <+: (d.run scan ls).opened := by
  induction ls generalizing scan with
  | nil => exact List.prefix_rfl
  | cons l ls ih =>
    apply List.IsPrefix.trans _ (ih (d.step scan l))
    rcases d.opened_step scan l with hsame | ⟨m, -, -, hadd⟩
    · simp only [hsame, List.prefix_rfl]
    · rw [hadd]
      exact List.prefix_append _ _

theorem mem_touched_run_of_mem (h : m ∈ scan.touched) (ls : List Line) :
    m ∈ (d.run scan ls).touched := by
  induction ls generalizing scan with
  | nil => exact h
  | cons l ls ih => exact ih (mem_touched_step.mpr (.inl h))

/-- What is reported for the first lines is reported for all of them, in the same order: a method
that is touched later may be reported between the others, but none of these is dropped or moved. -/
theorem result_run_append (d : Detector) (ls more : List Line) :
    (d.run {} ls).result.Sublist (d.run {} (ls ++ more)).result := by
  rw [run_append, Scan.result, Scan.result]
  have htouched : ∀ m, (d.run {} ls).touched.contains m = true →
      (d.run (d.run {} ls) more).touched.contains m = true := by
    intro m h
    rw [List.contains_iff_mem] at h ⊢
    exact mem_touched_run_of_mem h more
  apply List.Sublist.trans (List.monotone_filter_right _ htouched)
  apply List.Sublist.filter
  exact (prefix_opened_run _ more).sublist

end Detector

/-- **Reports are in order.** -/
theorem reports_in_order (d : Detector) :
    (∀ patch, (d.touchedMethods patch).Nodup ∧
      (d.touchedMethods patch).Pairwise (d.OpensBefore (linesOf patch))) ∧
    (∀ patch path, (d.detect patch path).Nodup) ∧
    ∀ patch more, Text.WholeLines patch →
      (d.touchedMethods patch).Sublist (d.touchedMethods (patch ++ more)) := by
  refine ⟨?_, fun patch path => Detector.nodup_detect patch path, ?_⟩
  · intro patch
    refine ⟨Detector.nodup_touchedMethods patch, ?_⟩
    exact (d.pairwise_opened_run (linesOf patch)).filter _
  · intro patch more hpatch
    show (d.run {} (linesOf patch)).result.Sublist (d.run {} (linesOf (patch ++ more))).result
    rw [linesOf_append hpatch]
    exact d.result_run_append (linesOf patch) (linesOf more)

/-- A matcher that knows two signatures. -/
def startOrStop : SignatureMatcher := fun line =>
  [("void start() \x7B", "start"), ("void stop() \x7B", "stop")].lookup (String.ofList line)

/-- A hunk that opens two methods and touches the second one. -/
def secondTouched : List Char :=
  "@@ -1,4 +1,5 @@\n void start() \x7B\n \x7D\n void stop() \x7B\n+  halt();\n \x7D\n".toList

/-- A hunk that touches the first of the two methods. -/
def firstTouched : List Char := "@@ -9 +10,2 @@ void start() \x7B\n+  begin();\n".toList

/-- Two methods, of which the first is touched by appended lines only: it comes first as soon as it
is reported. -/
theorem reports_in_order_lateTouch :
    Text.WholeLines secondTouched ∧
    ({ matcher := startOrStop } : Detector).touchedMethods secondTouched = ["stop"] ∧
    ({ matcher := startOrStop } : Detector).touchedMethods (secondTouched ++ firstTouched) =
      ["start", "stop"] ∧
    (({ matcher := startOrStop } : Detector).touchedMethods secondTouched).Sublist
      (({ matcher := startOrStop } : Detector).touchedMethods (secondTouched ++ firstTouched)) := by
  have hwhole : Text.WholeLines secondTouched := by decide
  exact ⟨hwhole, by decide, by decide, (reports_in_order _).2.2 _ _ hwhole⟩

end TestImpact.Patch
