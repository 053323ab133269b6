import TestImpact.Proofs.Patch.Meaning
import TestImpact.Proofs.Text.Lines

/-!
# Hunks are independent

The header of a hunk gives up the span that is open before it, so what a walk over a hunk touches
does not depend on where the walk comes from (`Detector.mem_touched_run_hunk`). Of the walk before
only its records are left, and they are never taken back. So a patch touches what its hunks touch,
each of them by itself and in any order (`hunks_independent`).
-/

namespace TestImpact.Patch

/-! ## Walks that begin with a header -/

namespace Detector

variable {d : Detector} {m : String} {header : Line}

/-- The span after a line depends on the span before it only. -/
theorem current_step_congr {scan scan' : Scan} (h : scan.current = scan'.current) (l : Line) :
    (d.step scan l).current = (d.step scan' l).current := by
  by_cases hk : l.kind = .metadata
  · simpa [step, hk] using h
  by_cases hr : d.Resets l
  · rw [current_step_of_resets hr, current_step_of_resets hr]
  · rw [current_step_of_not_resets hk hr, current_step_of_not_resets hk hr, h]

/-- The span that is open after some lines has nothing to do with the records that the walk had
before them. -/
theorem current_run_congr {scan scan' : Scan} (h : scan.current = scan'.current)
    (ls : List Line) : (d.run scan ls).current = (d.run scan' ls).current := by
  induction ls generalizing scan scan' with
  | nil => exact h
  | cons l ls ih => exact ih (current_step_congr h l)

/-- Behind the header of a hunk, the span does not depend on what came before. -/
theorem current_run_hunk (hk : header.kind = .hunkHeader) (scan scan' : Scan) (ls : List Line) :
    (d.run scan (header :: ls)).current = (d.run scan' (header :: ls)).current := by
  have hr : d.Resets header := .inr hk
  have hstep : (d.step scan header).current = (d.step scan' header).current := by
    rw [current_step_of_resets hr, current_step_of_resets hr]
  exact current_run_congr hstep ls

theorem touches_congr {scan scan' : Scan} (h : scan.current = scan'.current) {l : Line} :
    d.Touches scan m l ↔ d.Touches scan' m l := by
  rw [Touches, Touches, h]

/-- A walk over a hunk touches what it touches from the start, besides what was touched before. -/
theorem mem_touched_run_hunk (hk : header.kind = .hunkHeader) (scan : Scan) (ls : List Line) :
    m ∈ (d.run scan (header :: ls)).touched ↔
      m ∈ scan.touched ∨ m ∈ (d.run {} (header :: ls)).touched := by
  induction ls using List.reverseRecOn with
  | nil =>
    show m ∈ (d.step scan header).touched ↔ _ ∨ m ∈ (d.step {} header).touched
    rw [mem_touched_step, mem_touched_step]
    simp [not_touches_of_hunkHeader hk]
  | append_singleton ls l ih =>
    -- the last line touches a method in both walks or in neither, for the same span is open
    have hlast : d.Touches (d.run scan (header :: ls)) m l ↔
        d.Touches (d.run {} (header :: ls)) m l := touches_congr (current_run_hunk hk scan {} ls)
    rw [← List.cons_append, run_append_singleton, run_append_singleton, mem_touched_step,
      mem_touched_step, ih, hlast, or_assoc]

/-- What is touched has been met, so the result of a walk lists all of it. -/
theorem mem_touchedMethods {patch : List Char} :
    m ∈ d.touchedMethods patch ↔ m ∈ (d.run {} (linesOf patch)).touched := by
  rw [touchedMethods, ← run_filter_metadata, Scan.result, List.mem_filter, List.contains_iff_mem]
  constructor
  · exact And.right
  · intro h
    refine ⟨opened_of_touched (fun l hl => ?_) h, h⟩
    simpa using (List.mem_filter.mp hl).2

end Detector

/-! ## Patches that begin with a hunk -/

/-- Whether the first line of a patch is the header of a hunk. -/
def StartsHunk (patch : List Char) : Prop := ∃ l ∈ (Text.lines patch).head?, ['@', '@'] <+: l

instance : DecidablePred StartsHunk := fun patch =>
  inferInstanceAs (Decidable (∃ l ∈ (Text.lines patch).head?, ['@', '@'] <+: l))

theorem kind_ofText_of_prefix {l : List Char} (h : ['@', '@'] <+: l) :
    (Line.ofText l).kind = .hunkHeader := by
  obtain ⟨rest, rfl⟩ := h
  rw [Line.ofText]
  split
  · next hlast =>
    -- the carriage return at the end is none of the two characters at the start
    obtain ⟨init, c, rfl⟩ : ∃ init c, rest = init ++ [c] := by
      rcases List.eq_nil_or_concat rest with rfl | ⟨init, c, rfl⟩
      · simp at hlast
      · exact ⟨init, c, List.concat_eq_append⟩
    rw [← List.append_assoc, List.dropLast_concat]
    rfl
  · rfl

theorem StartsHunk.exists_header {patch : List Char} (h : StartsHunk patch) :
    ∃ header ls, linesOf patch = header :: ls ∧ header.kind = .hunkHeader := by
  obtain ⟨l, hl, hmark⟩ := h
  obtain ⟨ls, hls⟩ := List.head?_eq_some_iff.mp hl
  refine ⟨Line.ofText l, ls.map Line.ofText, ?_, kind_ofText_of_prefix hmark⟩
  rw [linesOf, hls, List.map_cons]

theorem linesOf_append {patch : List Char} (h : Text.WholeLines patch) (rest : List Char) :
    linesOf (patch ++ rest) = linesOf patch ++ linesOf rest := by
  rw [linesOf, Text.lines_append h, List.map_append]
  rfl

namespace Detector

variable {d : Detector} {m : String}

/-- Nothing that is open at the end of a patch reaches into a hunk that follows it. -/
theorem mem_touchedMethods_append {patch hunk : List Char} (hpatch : Text.WholeLines patch)
    (hhunk : StartsHunk hunk) :
    m ∈ d.touchedMethods (patch ++ hunk) ↔
      m ∈ d.touchedMethods patch ∨ m ∈ d.touchedMethods hunk := by
  obtain ⟨header, ls, hls, hk⟩ := hhunk.exists_header
  rw [mem_touchedMethods, mem_touchedMethods, mem_touchedMethods, linesOf_append hpatch, hls,
    run_append, mem_touched_run_hunk hk]

/-- A method is touched by hunks one below the other when it is touched by one of them. -/
theorem mem_touchedMethods_flatten {hunks : List (List Char)}
    (h : ∀ hunk ∈ hunks, StartsHunk hunk ∧ Text.WholeLines hunk) :
    m ∈ d.touchedMethods hunks.flatten ↔ ∃ hunk ∈ hunks, m ∈ d.touchedMethods hunk := by
  induction hunks using List.reverseRecOn with
  | nil =>
    have hnone : d.touchedMethods [] = [] := rfl
    simp [hnone]
  | append_singleton hunks hunk ih =>
    have hfront : ∀ hunk' ∈ hunks, StartsHunk hunk' ∧ Text.WholeLines hunk' :=
      fun hunk' h' => h hunk' (by simp [h'])
    have hwhole : Text.WholeLines hunks.flatten :=
      Text.wholeLines_flatten fun hunk' h' => (hfront hunk' h').2
    rw [List.flatten_concat, mem_touchedMethods_append hwhole (h hunk (by simp)).1, ih hfront]
    simp [or_and_right, exists_or]

end Detector

/-- **Hunks are independent.** A patch and a hunk after it touch together what they touch
separately, and hunks touch the same methods in any order. -/
theorem hunks_independent (d : Detector) :
    (∀ patch hunk, Text.WholeLines patch → StartsHunk hunk → ∀ m,
      m ∈ d.touchedMethods (patch ++ hunk) ↔
        m ∈ d.touchedMethods patch ∨ m ∈ d.touchedMethods hunk) ∧
    ∀ hunks hunks' : List (List Char), hunks.Perm hunks' →
      (∀ hunk ∈ hunks, StartsHunk hunk ∧ Text.WholeLines hunk) → ∀ m,
        m ∈ d.touchedMethods hunks.flatten ↔ m ∈ d.touchedMethods hunks'.flatten := by
  constructor
  · intro patch hunk hpatch hhunk m
    exact Detector.mem_touchedMethods_append hpatch hhunk
  · intro hunks hunks' hperm h m
    have h' : ∀ hunk ∈ hunks', StartsHunk hunk ∧ Text.WholeLines hunk :=
      fun hunk hmem => h hunk (hperm.mem_iff.mpr hmem)
    rw [Detector.mem_touchedMethods_flatten h, Detector.mem_touchedMethods_flatten h']
    simp only [hperm.mem_iff]

/-- A hunk that ends inside a body. -/
def openEnd : List Char := "@@ -1 +1,2 @@\n void run() \x7B\n+  first();\n".toList

/-- A hunk with an edit that no method is named for. -/
def strayEdit : List Char := "@@ -9 +10,2 @@\n+  second();\n other();\n".toList

/-- A hunk that ends inside a method, and an edit that stands outside any: in either order, one
method. -/
theorem hunks_independent_openEnd :
    Text.WholeLines openEnd ∧ StartsHunk strayEdit ∧
    ({} : Detector).touchedMethods openEnd = ["run"] ∧
    ({} : Detector).touchedMethods strayEdit = [] ∧
    (∀ m, m ∈ ({} : Detector).touchedMethods (openEnd ++ strayEdit) ↔ m = "run") ∧
    [openEnd, strayEdit].Perm [strayEdit, openEnd] ∧
    (∀ hunk ∈ [openEnd, strayEdit], StartsHunk hunk ∧ Text.WholeLines hunk) ∧
    ∀ m, m ∈ ({} : Detector).touchedMethods (strayEdit ++ openEnd) ↔ m = "run" := by
  obtain ⟨happend, hswap⟩ := hunks_independent {}
  have hall : ∀ hunk ∈ [openEnd, strayEdit], StartsHunk hunk ∧ Text.WholeLines hunk := by decide
  have hwhole : Text.WholeLines openEnd := (hall openEnd (by simp)).2
  have hstarts : StartsHunk strayEdit := (hall strayEdit (by simp)).1
  have hperm : [openEnd, strayEdit].Perm [strayEdit, openEnd] := List.Perm.swap _ _ _
  have hopen : ({} : Detector).touchedMethods openEnd = ["run"] := by decide +kernel
  have hstray : ({} : Detector).touchedMethods strayEdit = [] := by decide +kernel
  have hboth : ∀ m, m ∈ ({} : Detector).touchedMethods (openEnd ++ strayEdit) ↔ m = "run" := by
    intro m
    rw [happend openEnd strayEdit hwhole hstarts, hopen, hstray]
    simp
  refine ⟨hwhole, hstarts, hopen, hstray, hboth, hperm, hall, ?_⟩
  intro m
  have hflat := hswap _ _ hperm hall m
  simp only [List.flatten_cons, List.flatten_nil, List.append_nil] at hflat
  exact hflat.symm.trans (hboth m)

end TestImpact.Patch
