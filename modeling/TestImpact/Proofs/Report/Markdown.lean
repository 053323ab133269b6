import Mathlib.Algebra.GroupWithZero.Nat
import TestImpact.Proofs.Text.Lines
import TestImpact.Report.Render

/-!
# The table of covering tests

The markdown rendering has one line for each entry of the traceability, in order. A reader of the
table cuts such a line at the bars that no backslash escapes. Names are written as they are, so
their bars are cut at as well (`bars_rowLine`): the line has two cells if and only if no name of the
entry has a bar that is not escaped (`markdown_rows`), and with the name `a|b` it has more
(`not_hasTwoCells`).

Readers of markdown do not agree on a backslash behind a backslash. What is proved here holds for
both readings.
-/

namespace TestImpact.Report

open Text

/-- How a backslash behind a backslash is read. -/
inductive Escaping
  /-- Every backslash escapes the character behind it. -/
  | always
  /-- A backslash that is escaped itself escapes nothing. -/
  | paired
  deriving DecidableEq, Repr

/-- Whether `c` escapes the character behind it, `escaped` telling whether it is escaped itself. -/
def Escaping.escapes (reading : Escaping) (escaped : Bool) (c : Char) : Bool :=
  match reading with
  | .always => c == '\\'
  | .paired => c == '\\' && !escaped

/-- How many bars of a text are not escaped, `escaped` telling it of its first character. -/
def barsFrom (reading : Escaping) (escaped : Bool) : List Char → Nat
  | [] => 0
  | c :: s =>
    (if c = '|' ∧ escaped = false then 1 else 0) + barsFrom reading (reading.escapes escaped c) s

/-- How many bars of a text are not escaped. -/
def bars (reading : Escaping) (s : List Char) : Nat := barsFrom reading false s

/-- A row of a table has two cells: bars stand before them, between them and behind them. -/
def HasTwoCells (reading : Escaping) (line : List Char) : Prop := bars reading line = 3

/-- The names in the row of an entry. -/
def entryNames (e : TraceEntry) : List String := e.method :: e.tests

/-- The line of an entry in the table: what is written for it, without the line feed. -/
def rowLine (e : TraceEntry) : List Char := (tableRow e).toList.dropLast

/-- The lines above the rows of the table. -/
def tableHead : List (List Char) :=
  [[], "### 🧪 Covering Tests".toList, [], "| Method | Tests |".toList, "|--------|-------|".toList]

/-- The lines of the table of covering tests, if there is anything to list. -/
def tableLines (entries : List TraceEntry) : List (List Char) :=
  if entries.isEmpty then [] else tableHead ++ entries.map rowLine

/-- What stands above the table. -/
def aboveTable (r : Report) (maxMethods : Nat) : String :=
  "### 🔍 Changed Methods in PR:\n" ++ markdownMethods r.changedMethods maxMethods

/-- The rendering has one line for each entry, in order: the lines of the table stand between those
above it and those of the warnings. -/
def ListsEntries (r : Report) (maxMethods : Nat) : Prop :=
  lines (r.markdown maxMethods).toList =
    lines (r.aboveTable maxMethods).toList ++ tableLines (r.traceability.getD []) ++
      lines (markdownWarnings r.diagnostics).toList

/-! ## Bars -/

section Bars

variable {reading : Escaping} {escaped : Bool}

/-- What a text ends with tells whether the text behind it begins with an escaped character. -/
theorem barsFrom_append (s t : List Char) :
    barsFrom reading escaped (s ++ t) =
      barsFrom reading escaped s + barsFrom reading (s.foldl reading.escapes escaped) t := by
  induction s generalizing escaped with
  | nil => simp [barsFrom]
  | cons c s ih => simp only [List.cons_append, barsFrom, List.foldl_cons, ih, Nat.add_assoc]

/-- A text that is read alike in both ways, and does not end with a backslash. -/
theorem barsFrom_plain (reading : Escaping) {s : List Char} {n : Nat}
    (h : ∀ reading : Escaping, barsFrom reading false s = n ∧ s.foldl reading.escapes false = false)
    (t : List Char) : barsFrom reading false (s ++ t) = n + barsFrom reading false t := by
  rw [barsFrom_append, (h reading).1, (h reading).2]

theorem escapes_of_ne {c : Char} (hc : c ≠ '\\') : reading.escapes escaped c = false := by
  cases reading <;> simp [Escaping.escapes, hc]

/-- Backticks keep the backslashes of a name from what stands around it. -/
theorem barsFrom_code (name : String) (rest : List Char) :
    barsFrom reading false ((code name).toList ++ rest) =
      bars reading name.toList + barsFrom reading false rest := by
  have hcode : (code name).toList ++ rest = '\x60' :: (name.toList ++ '\x60' :: rest) := by
    simp [code, String.toList_append]
  rw [hcode, barsFrom, escapes_of_ne (by decide), barsFrom_append, barsFrom,
    escapes_of_ne (by decide)]
  simp [bars]

theorem testsCell_singleton (t : String) : testsCell [t] = code t := rfl

theorem testsCell_cons_cons (t t' : String) (tests : List String) :
    testsCell (t :: t' :: tests) = code t ++ (", " ++ testsCell (t' :: tests)) := by
  simp [testsCell, commaSeparated, String.intercalate_cons_cons, String.append_assoc]

/-- Beside the bars of the names, a cell of tests has none. -/
theorem barsFrom_testsCell (tests : List String) (rest : List Char) :
    barsFrom reading false ((testsCell tests).toList ++ rest) =
      (tests.map fun t => bars reading t.toList).sum + barsFrom reading false rest := by
  induction tests with
  | nil =>
    have hnone := barsFrom_plain reading (s := "_none_".toList) (n := 0)
      (by intro reading; cases reading <;> decide)
    exact hnone rest
  | cons t tests ih =>
    cases tests with
    | nil => simp [testsCell_singleton, barsFrom_code]
    | cons t' tests =>
      have hcomma := barsFrom_plain reading (s := ", ".toList) (n := 0)
        (by intro reading; cases reading <;> decide)
      rw [testsCell_cons_cons, String.toList_append, String.toList_append, List.append_assoc,
        List.append_assoc, barsFrom_code, hcomma, ih, List.map_cons (a := t), List.sum_cons]
      omega

end Bars

/-! ## The line of an entry -/

theorem toList_tableRow (e : TraceEntry) : (tableRow e).toList = rowLine e ++ ['\n'] := by
  have hrow : (tableRow e).toList =
      ("| " ++ code e.method ++ " | " ++ testsCell e.tests ++ " |").toList ++ ['\n'] := by
    simp [tableRow, String.toList_append]
  rw [rowLine, hrow, List.dropLast_concat]

/-- A row is made of the name of the method and the names of its tests, between bars. -/
theorem rowLine_eq (e : TraceEntry) :
    rowLine e =
      "| ".toList ++ ((code e.method).toList ++
        (" | ".toList ++ ((testsCell e.tests).toList ++ " |".toList))) := by
  rw [← List.append_left_inj ['\n'], ← toList_tableRow]
  simp [tableRow, String.toList_append]

/-- Beside the three bars of the row, a line has those of the names. -/
theorem bars_rowLine (reading : Escaping) (e : TraceEntry) :
    bars reading (rowLine e) =
      3 + ((entryNames e).map fun name => bars reading name.toList).sum := by
  have hleft := barsFrom_plain reading (s := "| ".toList) (n := 1)
    (by intro reading; cases reading <;> decide)
  have hmiddle := barsFrom_plain reading (s := " | ".toList) (n := 1)
    (by intro reading; cases reading <;> decide)
  have hright : barsFrom reading false " |".toList = 1 := by cases reading <;> decide
  rw [rowLine_eq, bars, hleft, barsFrom_code, hmiddle, barsFrom_testsCell, hright, entryNames,
    List.map_cons, List.sum_cons]
  omega

/-- Names may only have bars that are escaped. -/
theorem hasTwoCells_iff {reading : Escaping} {e : TraceEntry} :
    HasTwoCells reading (rowLine e) ↔ ∀ name ∈ entryNames e, bars reading name.toList = 0 := by
  rw [HasTwoCells, bars_rowLine, Nat.add_eq_left, List.sum_eq_zero_iff_forall_eq_nat]
  simp

/-! ## The lines of the rendering -/

/-- No name in the table reaches over the end of its line. -/
def NamesInLines (r : Report) : Prop :=
  ∀ e ∈ r.traceability.getD [], ∀ name ∈ entryNames e, '\n' ∉ name.toList

theorem not_mem_code {name : String} (h : '\n' ∉ name.toList) : '\n' ∉ (code name).toList := by
  simpa [code, String.toList_append] using h

theorem not_mem_testsCell {tests : List String} (h : ∀ t ∈ tests, '\n' ∉ t.toList) :
    '\n' ∉ (testsCell tests).toList := by
  induction tests with
  | nil => decide
  | cons t tests ih =>
    have ht := not_mem_code (h t (by simp))
    have ih := ih fun t' ht' => h t' (by simp [ht'])
    cases tests with
    | nil => exact ht
    | cons t' tests =>
      rw [testsCell_cons_cons, String.toList_append, String.toList_append]
      simp [ht, ih]

theorem not_mem_rowLine {e : TraceEntry} (h : ∀ name ∈ entryNames e, '\n' ∉ name.toList) :
    '\n' ∉ rowLine e := by
  have hmethod := not_mem_code (h e.method (by simp [entryNames]))
  have htests : '\n' ∉ (testsCell e.tests).toList :=
    not_mem_testsCell fun t ht => h t (by simp [entryNames, ht])
  rw [rowLine_eq]
  simp [hmethod, htests]

theorem getLast?_rowLine (e : TraceEntry) : (rowLine e).getLast? = some '|' := by
  have hend : " |".toList = [' '] ++ ['|'] := rfl
  rw [rowLine_eq, hend]
  simp only [← List.append_assoc, List.getLast?_concat]

theorem toList_tableHead :
    "\n### 🧪 Covering Tests\n\n| Method | Tests |\n|--------|-------|\n".toList =
      unlines tableHead := by
  decide

/-- The table is its lines, one below the other. -/
theorem toList_markdownTests (traceability : Option (List TraceEntry)) :
    (markdownTests traceability).toList = unlines (tableLines (traceability.getD [])) := by
  rw [markdownTests, tableLines]
  cases traceability.getD [] with
  | nil => rfl
  | cons e entries =>
    have hrows : (String.join ((e :: entries).map tableRow)).toList =
        unlines ((e :: entries).map rowLine) := toList_join_unlines toList_tableRow _
    simp only [List.isEmpty_cons, Bool.false_eq_true, if_false, String.toList_append,
      toList_tableHead, hrows, unlines_append]

/-- The table is read line by line. -/
theorem lines_markdownTests {r : Report} (h : r.NamesInLines) :
    lines (markdownTests r.traceability).toList = tableLines (r.traceability.getD []) := by
  rw [toList_markdownTests]
  apply lines_unlines_of_getLast?
  intro l hl
  rw [tableLines] at hl
  split at hl
  · cases hl
  · rcases List.mem_append.mp hl with hhead | hrow
    · have hplain : ∀ l ∈ [[], "### 🧪 Covering Tests".toList, [], "| Method | Tests |".toList,
          "|--------|-------|".toList], '\n' ∉ l ∧ l.getLast? ≠ some '\r' := by decide
      exact hplain l hhead
    · obtain ⟨e, he, rfl⟩ := List.mem_map.mp hrow
      rw [getLast?_rowLine]
      exact ⟨not_mem_rowLine (h e he), by decide⟩

theorem wholeLines_markdownMethods (methods : List String) (maxMethods : Nat) :
    WholeLines (markdownMethods methods maxMethods).toList := by
  have hends : ∀ s t : String, ['\n'] <:+ t.toList → WholeLines (s ++ t).toList := by
    intro s t ht
    rw [String.toList_append]
    exact .inr (ht.trans (List.suffix_append _ _))
  rw [markdownMethods]
  split
  · exact .inr (by decide)
  · rw [String.toList_append]
    apply wholeLines_append
    · rw [String.toList_join, List.flatMap_def]
      apply wholeLines_flatten
      intro l hl
      obtain ⟨bullet, hbullet, rfl⟩ := List.mem_map.mp hl
      obtain ⟨name, -, rfl⟩ := List.mem_map.mp hbullet
      exact hends _ _ (by decide)
    · split
      · exact hends _ _ (by decide)
      · exact .inl rfl

theorem wholeLines_aboveTable (r : Report) (maxMethods : Nat) :
    WholeLines (r.aboveTable maxMethods).toList := by
  have habove : (r.aboveTable maxMethods).toList = "### 🔍 Changed Methods in PR:\n".toList ++
      (markdownMethods r.changedMethods maxMethods).toList := String.toList_append
  rw [habove]
  exact wholeLines_append (.inr (by decide)) (wholeLines_markdownMethods _ _)

/-- **Rows of the table of covering tests.** Whatever else is in a report, the rendering has one
line for each entry, in order, and this line has two cells if and only if the names of the entry
have no bars but escaped ones. -/
theorem markdown_rows (reading : Escaping) {r : Report} (h : r.NamesInLines) (maxMethods : Nat) :
    r.ListsEntries maxMethods ∧
      ∀ e ∈ r.traceability.getD [],
        HasTwoCells reading (rowLine e) ↔ ∀ name ∈ entryNames e, bars reading name.toList = 0 := by
  constructor
  · have habove := wholeLines_aboveTable r maxMethods
    have htable : WholeLines (markdownTests r.traceability).toList := by
      rw [toList_markdownTests]
      exact wholeLines_unlines _
    have hmarkdown : r.markdown maxMethods = r.aboveTable maxMethods ++
        markdownTests r.traceability ++ markdownWarnings r.diagnostics := rfl
    rw [ListsEntries, hmarkdown, String.toList_append, String.toList_append,
      lines_append (wholeLines_append habove htable), lines_append habove, lines_markdownTests h]
  · intro e he
    exact hasTwoCells_iff

/-- A report of one entry. -/
def entryReport (method : String) (tests : List String) : Report :=
  { run := { startedAt := "" }, traceability := some [⟨method, tests⟩] }

/-- A bar behind a backslash, for a reader who takes backslashes in pairs: two cells. -/
theorem markdown_rows_escapedBar :
    (entryReport "A.or()" ["true\\|false"]).NamesInLines ∧
      ∀ e ∈ (entryReport "A.or()" ["true\\|false"]).traceability.getD [],
        HasTwoCells .paired (rowLine e) := by
  have hlines : (entryReport "A.or()" ["true\\|false"]).NamesInLines := by
    simp [NamesInLines, entryReport, entryNames]
  refine ⟨hlines, ?_⟩
  intro e he
  apply ((markdown_rows .paired hlines 50).2 e he).mpr
  obtain rfl := List.mem_singleton.mp he
  decide

/-- A bar in the name of a method is cut at. -/
theorem not_hasTwoCells :
    (entryReport "a|b" ["t"]).NamesInLines ∧
      ¬ ((entryReport "a|b" ["t"]).ListsEntries 50 ∧
        ∀ e ∈ (entryReport "a|b" ["t"]).traceability.getD [], HasTwoCells .always (rowLine e)) ∧
      ¬ ((entryReport "a|b" ["t"]).ListsEntries 50 ∧
        ∀ e ∈ (entryReport "a|b" ["t"]).traceability.getD [], HasTwoCells .paired (rowLine e)) := by
  have hbar : ∀ reading, bars reading "a|b".toList ≠ 0 := by
    intro reading
    cases reading <;> decide
  have hcells : ∀ reading, ¬ ∀ e ∈ (entryReport "a|b" ["t"]).traceability.getD [],
      HasTwoCells reading (rowLine e) := by
    intro reading hcells
    have hnames := hasTwoCells_iff.mp (hcells ⟨"a|b", ["t"]⟩ (List.mem_singleton.mpr rfl))
    exact hbar reading (hnames "a|b" (by simp [entryNames]))
  refine ⟨by simp [NamesInLines, entryReport, entryNames], ?_, ?_⟩
  · exact fun h => hcells _ h.2
  · exact fun h => hcells _ h.2

end TestImpact.Report
