import TestImpact.Diff.Split
import TestImpact.Patch.Detector
import TestImpact.Proofs.Text.Lines
import TestImpact.Table.Parser

/-!
# Line ends

A line ends with a line feed, or with a carriage return and a line feed. `addReturns` turns some of
the line ends of a text from the first form into the second. A diff loses the carriage returns
before it is cut into lines (`unifyLineEnds_addReturns`), a patch and a table when they are
(`lines_addReturns`). So none of the three readers can tell the two forms apart, however they are
mixed (`lineEnds_immaterial`).
-/

namespace TestImpact

namespace Text

/-- A text with a carriage return before some of its line feeds. They are numbered from zero, and
`chosen` says which of them get one. -/
def addReturns (chosen : Nat → Bool) : List Char → List Char
  | [] => []
  | c :: s =>
    if c = '\n' then
      (if chosen 0 then ['\r', '\n'] else ['\n']) ++ addReturns (fun n => chosen (n + 1)) s
    else c :: addReturns chosen s

variable {c : Char} {s line : List Char}

theorem addReturns_cons_of_ne (hc : c ≠ '\n') (chosen : Nat → Bool) :
    addReturns chosen (c :: s) = c :: addReturns chosen s := by
  rw [addReturns, if_neg hc]

theorem addReturns_feed (chosen : Nat → Bool) : addReturns chosen ('\n' :: s) =
    (if chosen 0 then ['\r', '\n'] else ['\n']) ++ addReturns (fun n => chosen (n + 1)) s := by
  rw [addReturns, if_pos rfl]

theorem finishLine_of_notMem (h : '\r' ∉ line) : finishLine line = line.reverse := by
  have hlast : line.reverse.getLast? ≠ some '\r' := by
    rw [List.getLast?_reverse]
    exact fun hreturn => h (List.mem_of_head? hreturn)
  simpa using finishLine_reverse hlast

/-- The line that is being read ends in either form. -/
theorem linesFrom_addReturns (hline : '\r' ∉ line) (hs : '\r' ∉ s) (chosen : Nat → Bool) :
    linesFrom line (addReturns chosen s) = linesFrom line s := by
  induction s generalizing line chosen with
  | nil => rfl
  | cons c s ih =>
    rw [List.mem_cons, not_or] at hs
    by_cases hfeed : c = '\n'
    · subst hfeed
      have hrest := ih (List.not_mem_nil : '\r' ∉ []) hs.2 fun n => chosen (n + 1)
      rw [addReturns_feed]
      split
      · -- the carriage return is collected with the line and taken off again
        have hlines : ∀ r, linesFrom line (['\r', '\n'] ++ r) = line.reverse :: linesFrom [] r :=
          fun _ => rfl
        rw [hlines, linesFrom, if_pos rfl, finishLine_of_notMem hline, hrest]
      · rw [List.singleton_append, linesFrom, linesFrom, if_pos rfl, if_pos rfl, hrest]
    · have hfront : '\r' ∉ c :: line := by simp [hs.1, hline]
      rw [addReturns_cons_of_ne hfeed, linesFrom, linesFrom, if_neg hfeed, if_neg hfeed,
        ih hfront hs.2]

/-- The lines of a text are the same with any choice of line ends. -/
theorem lines_addReturns (h : '\r' ∉ s) (chosen : Nat → Bool) :
    lines (addReturns chosen s) = lines s :=
  linesFrom_addReturns List.not_mem_nil h chosen

end Text

open Text

variable {text : List Char}

theorem Diff.unifyLineEnds_cons_of_ne {c : Char} (hc : c ≠ '\r') (s : List Char) :
    unifyLineEnds (c :: s) = c :: unifyLineEnds s := by
  rw [unifyLineEnds]
  rintro rest rfl
  exact absurd rfl hc

/-- A diff loses the carriage returns that it has got. -/
theorem Diff.unifyLineEnds_addReturns (h : '\r' ∉ text) (chosen : Nat → Bool) :
    unifyLineEnds (addReturns chosen text) = unifyLineEnds text := by
  induction text generalizing chosen with
  | nil => rfl
  | cons c s ih =>
    rw [List.mem_cons, not_or] at h
    by_cases hfeed : c = '\n'
    · subst hfeed
      have hrest := ih h.2 fun n => chosen (n + 1)
      rw [addReturns_feed, unifyLineEnds_cons_of_ne (by decide)]
      split
      · have hpair : ∀ r, unifyLineEnds (['\r', '\n'] ++ r) = '\n' :: unifyLineEnds r :=
          fun _ => rfl
        rw [hpair, hrest]
      · rw [List.singleton_append, unifyLineEnds_cons_of_ne (by decide), hrest]
    · rw [addReturns_cons_of_ne hfeed, unifyLineEnds_cons_of_ne (Ne.symm h.1),
        unifyLineEnds_cons_of_ne (Ne.symm h.1), ih h.2]

/-- No carriage return gets in front of a byte order mark. -/
theorem Table.dropMark_addReturns (chosen : Nat → Bool) (text : List Char) :
    dropMark (addReturns chosen text) = addReturns chosen (dropMark text) := by
  cases text with
  | nil => rfl
  | cons c s =>
    by_cases hfeed : c = '\n'
    · subst hfeed
      have hkept : dropMark ('\n' :: s) = '\n' :: s := rfl
      rw [hkept, addReturns_feed]
      split <;> rfl
    · rw [addReturns_cons_of_ne hfeed]
      by_cases hmark : c = '\uFEFF'
      · subst hmark
        rfl
      · have hkept : ∀ r, dropMark (c :: r) = c :: r := by
          intro r
          rw [dropMark]
          rintro rest heq
          exact hmark (List.cons.inj heq).1
        rw [hkept, hkept, addReturns_cons_of_ne hfeed]

theorem Table.not_mem_dropMark {c : Char} (h : c ∉ text) : c ∉ dropMark text := by
  rw [dropMark.eq_def]
  split
  · exact fun hc => h (List.mem_cons_of_mem _ hc)
  · exact h

theorem Table.dataLines_addReturns (h : '\r' ∉ text) (chosen : Nat → Bool) :
    dataLines (addReturns chosen text) = dataLines text := by
  rw [dataLines, dropMark_addReturns, lines_addReturns (not_mem_dropMark h), dataLines]

/-- **Line ends do not matter**: whichever line feeds of a text get a carriage return, it is the
same diff, the same patch and the same table, or it is malformed for the same reason, with the same
number of the line. -/
theorem lineEnds_immaterial (h : '\r' ∉ text) (chosen : Nat → Bool) :
    Diff.split (addReturns chosen text) = Diff.split text ∧
    (∀ d : Patch.Detector,
      d.touchedMethods (addReturns chosen text) = d.touchedMethods text) ∧
    (∀ kind format,
      Table.parseNamed kind format (addReturns chosen text) = Table.parseNamed kind format text) ∧
    ∀ format,
      Table.parseCoverage format (addReturns chosen text) = Table.parseCoverage format text := by
  have hrows : ∀ kind separator, Table.parseRows kind separator (addReturns chosen text) =
      Table.parseRows kind separator text := by
    intro kind separator
    rw [Table.parseRows, Table.dataLines_addReturns h, Table.parseRows]
  refine ⟨?_, ?_, ?_, ?_⟩
  · rw [Diff.split, Diff.unifyLineEnds_addReturns h, Diff.split]
  · intro d
    rw [Patch.Detector.touchedMethods, Patch.linesOf, lines_addReturns h,
      Patch.Detector.touchedMethods, Patch.linesOf]
  · intro kind format
    rw [Table.parseNamed, hrows, Table.parseNamed]
  · intro format
    rw [Table.parseCoverage, hrows, Table.parseCoverage]

/-- A diff with line feeds only. Its last line is not ended. -/
def feedsOnly : List Char :=
  "--- a/A.java\n+++ b/A.java\n@@ -1,2 +1,2 @@\n-old();\n+new();\n \x7D".toList

/-- The same diff, in which every other line but the first ends with a carriage return as well. -/
def mixedEnds : List Char :=
  "--- a/A.java\n+++ b/A.java\r\n@@ -1,2 +1,2 @@\n-old();\r\n+new();\n \x7D".toList

/-- A diff in which every other line end is changed: its record, its touched methods, and how it
fares as a table. -/
theorem lineEnds_immaterial_mixedEnds :
    '\r' ∉ feedsOnly ∧ addReturns (· % 2 = 1) feedsOnly = mixedEnds ∧
    Diff.split mixedEnds = .ok [⟨"A.java",
      some "@@ -1,2 +1,2 @@\n-old();\n+new();\n \x7D", some "modified"⟩] ∧
    (∀ d : Patch.Detector, d.touchedMethods mixedEnds = d.touchedMethods feedsOnly) ∧
    Table.parseNamed .method {} mixedEnds = .error (.invalidRow .method 1 (.columns 1)) ∧
    Table.parseCoverage ⟨'/', "_"⟩ mixedEnds =
      .error (.invalidRow .coverage 3 (.columns 1)) := by
  have hfree : '\r' ∉ feedsOnly := by decide +kernel
  have hmixed : addReturns (· % 2 = 1) feedsOnly = mixedEnds := by decide +kernel
  obtain ⟨hsplit, htouched, hnamed, hcoverage⟩ := lineEnds_immaterial hfree (· % 2 = 1)
  rw [hmixed] at hsplit htouched hnamed hcoverage
  refine ⟨hfree, hmixed, ?_, htouched, ?_, ?_⟩
  · rw [hsplit]
    decide +kernel
  · rw [hnamed]
    decide +kernel
  · rw [hcoverage]
    decide +kernel

end TestImpact
