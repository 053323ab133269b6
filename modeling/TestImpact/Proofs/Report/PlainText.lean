import TestImpact.Proofs.Lists
import TestImpact.Proofs.Text.Lines
import TestImpact.Report.Render

/-!
# Reading the plain text of a report

The plain text of a report can be read back: its lines tell the sections by how far they are
indented. The names of methods stand behind two blanks and those of tests behind four, an empty line
begins every section but the first, and the diagnostics are not indented at all. So a section ends
where the indentation changes (`append_inj_of_forall`), and two reports with the same text tell
the same (`text_unambiguous`).
-/

namespace TestImpact.Report

open Text

/-- Names that keep the lines of an entry apart from other lines. Each lies within one line, that of
the method is indented by the blanks before it and no more, and no test is called as the absence of
tests is. -/
structure IsPlainEntry (e : TraceEntry) : Prop where
  method_line : '\n' ∉ e.method.toList
  method_ne : e.method ≠ ""
  method_unindented : e.method.toList.head? ≠ some ' '
  test_line : ∀ t ∈ e.tests, '\n' ∉ t.toList
  test_ne : ∀ t ∈ e.tests, t ≠ "(no tests)"

/-- A message and a code that keep the parts of a line apart. -/
structure IsPlainDiagnostic (d : Diagnostic) : Prop where
  message_line : '\n' ∉ d.message.toList
  code_line : '\n' ∉ d.code.toList
  code_unbroken : ' ' ∉ d.code.toList

/-- Names and messages that keep the plain text readable. -/
structure IsPlain (r : Report) : Prop where
  changed : ∀ m ∈ r.changedMethods, '\n' ∉ m.toList
  entries : ∀ es ∈ r.traceability, ∀ e ∈ es, IsPlainEntry e
  diagnostics : ∀ d ∈ r.diagnostics, IsPlainDiagnostic d

/-! ## The lines of the text -/

/-- The line of a text behind some blanks. -/
def indented (width : Nat) (s : String) : List Char := List.replicate width ' ' ++ s.toList

/-- The lines of the changed methods. -/
def methodLines (methods : List String) : List (List Char) :=
  if methods.isEmpty then ["No changed methods found.".toList]
  else ("Changed methods (" ++ toString methods.length ++ "):").toList :: methods.map (indented 2)

/-- The lines of the tests of a method. -/
def testLines (tests : List String) : List (List Char) :=
  if tests.isEmpty then [indented 4 "(no tests)"] else tests.map (indented 4)

/-- The lines of a method and its tests. -/
def entryLines (e : TraceEntry) : List (List Char) := indented 2 e.method :: testLines e.tests

/-- The lines of all entries. -/
def entriesLines (entries : List TraceEntry) : List (List Char) :=
  if entries.isEmpty then [indented 2 "(none)"] else entries.flatMap entryLines

/-- The lines of the covering tests, if tests have been looked for. -/
def traceLines : Option (List TraceEntry) → List (List Char)
  | none => []
  | some entries => [] :: "Covering tests:".toList :: entriesLines entries

/-- The line of a diagnostic. -/
def diagnosticLine (d : Diagnostic) : List Char :=
  (severityLabel d.severity ++ ": " ++ d.message).toList ++ ' ' :: '[' :: (d.code.toList ++ [']'])

/-- The lines of the diagnostics. -/
def diagnosticLines (diagnostics : List Diagnostic) : List (List Char) :=
  if diagnostics.isEmpty then [] else [] :: diagnostics.map diagnosticLine

/-- The lines of the text. -/
def textLines (r : Report) : List (List Char) :=
  methodLines r.changedMethods ++ (traceLines r.traceability ++ diagnosticLines r.diagnostics)

theorem toList_indentedLine (width : Nat) (s : String) :
    (indentedLine width s).toList = indented width s ++ ['\n'] := by
  have hblanks : ("".pushn ' ' width).toList = List.replicate width ' ' := by
    rw [String.pushn_eq_repeat_push]
    induction width with
    | zero => rfl
    | succ width ih => rw [Nat.repeat, String.toList_push, ih, List.replicate_succ']
  simp [indentedLine, indented, String.toList_append, hblanks]

theorem toList_textMethods (methods : List String) :
    (textMethods methods).toList = unlines (methodLines methods) := by
  rw [textMethods, methodLines]
  split
  · rfl
  · rw [String.toList_append, toList_join_unlines (toList_indentedLine 2)]
    simp [unlines, String.toList_append]

theorem toList_textEntry (e : TraceEntry) : (textEntry e).toList = unlines (entryLines e) := by
  have htests : (if e.tests.isEmpty then indentedLine 4 "(no tests)"
      else String.join (e.tests.map (indentedLine 4))).toList = unlines (testLines e.tests) := by
    rw [testLines]
    split
    · rw [toList_indentedLine]
      simp [unlines]
    · exact toList_join_unlines (toList_indentedLine 4) _
  rw [textEntry, String.toList_append, htests, toList_indentedLine, entryLines]
  simp [unlines]

theorem toList_textTests (traceability : Option (List TraceEntry)) :
    (textTests traceability).toList = unlines (traceLines traceability) := by
  cases traceability with
  | none => rfl
  | some entries =>
    have hentries : (if entries.isEmpty then indentedLine 2 "(none)"
        else String.join (entries.map textEntry)).toList = unlines (entriesLines entries) := by
      rw [entriesLines]
      split
      · rw [toList_indentedLine]
        simp [unlines]
      · rw [String.toList_join, List.flatMap_map, unlines, List.flatMap_assoc]
        simp only [toList_textEntry, unlines]
    have hhead : "\nCovering tests:\n".toList = unlines [[], "Covering tests:".toList] := rfl
    have htext : textTests (some entries) = "\nCovering tests:\n" ++
        (if entries.isEmpty then indentedLine 2 "(none)"
        else String.join (entries.map textEntry)) := rfl
    rw [htext, String.toList_append, hentries, hhead, ← unlines_append]
    rfl

theorem toList_textDiagnostics (diagnostics : List Diagnostic) :
    (textDiagnostics diagnostics).toList = unlines (diagnosticLines diagnostics) := by
  rw [textDiagnostics, diagnosticLines]
  split
  · rfl
  · have hline : ∀ d : Diagnostic, (textDiagnostic d).toList = diagnosticLine d ++ ['\n'] := by
      intro d
      simp [textDiagnostic, diagnosticLine, String.toList_append]
    rw [String.toList_append, toList_join_unlines hline]
    simp [unlines]

/-- The plain text is its lines, one below the other. -/
theorem toList_text (r : Report) : r.text.toList = unlines r.textLines := by
  rw [text, String.toList_append, String.toList_append, toList_textMethods, toList_textTests,
    toList_textDiagnostics, textLines, unlines_append, unlines_append, List.append_assoc]

/-! ## Where sections end -/

/-- Whether a line is indented by some blanks or more. -/
def IsIndented (width : Nat) (l : List Char) : Prop := List.replicate width ' ' <+: l

theorem isIndented_indented {width n : Nat} (h : n ≤ width) (s : String) :
    IsIndented n (indented width s) := by
  obtain ⟨k, rfl⟩ := Nat.exists_eq_add_of_le h
  rw [IsIndented, indented, ← List.replicate_append_replicate, List.append_assoc]
  exact List.prefix_append _ _

theorem not_isIndented_nil {width : Nat} (h : 0 < width) : ¬ IsIndented width [] := by
  simp [IsIndented, List.prefix_nil, Nat.pos_iff_ne_zero.mp h]

/-- The name of a method is not indented as far as that of a test. -/
theorem not_isIndented_method {m : String} (hne : m ≠ "") (hblank : m.toList.head? ≠ some ' ') :
    ¬ IsIndented 4 (indented 2 m) := by
  rw [IsIndented, indented, ← List.replicate_append_replicate (n := 2) (m := 2),
    List.prefix_append_right_inj]
  intro h
  cases hm : m.toList with
  | nil => exact hne (String.toList_eq_nil_iff.mp hm)
  | cons c rest =>
    rw [hm] at h hblank
    obtain ⟨hc, -⟩ := List.cons_prefix_cons.mp h
    exact hblank (by simp [← hc])

/-- Indented lines are told apart by what is indented. -/
theorem indented_injective (width : Nat) : Function.Injective (indented width) := by
  intro s t h
  exact String.toList_inj.mp (List.append_cancel_left h)

/-! ## Reading the sections -/

theorem eq_nil_of_mem_head?_diagnosticLines {ds : List Diagnostic} :
    ∀ l ∈ (diagnosticLines ds).head?, l = [] := by
  cases ds <;> simp [diagnosticLines]

theorem eq_nil_of_mem_head?_sections {traceability : Option (List TraceEntry)}
    {ds : List Diagnostic} :
    ∀ l ∈ (traceLines traceability ++ diagnosticLines ds).head?, l = [] := by
  cases traceability with
  | none => exact eq_nil_of_mem_head?_diagnosticLines
  | some entries => simp [traceLines]

/-- What is not indented ends a section. -/
theorem not_isIndented_of_eq_nil {width : Nat} (h : 0 < width) {ls : List (List Char)}
    (hls : ∀ l ∈ ls.head?, l = []) : ∀ l ∈ ls.head?, ¬ IsIndented width l := by
  intro l hl
  rw [hls l hl]
  exact not_isIndented_nil h

theorem isIndented_of_mem_map {width : Nat} {names : List String} :
    ∀ l ∈ names.map (indented width), IsIndented width l := by
  intro l hl
  obtain ⟨name, -, rfl⟩ := List.mem_map.mp hl
  exact isIndented_indented le_rfl name

theorem noMethods_ne_heading (n : Nat) :
    "No changed methods found.".toList ≠ ("Changed methods (" ++ toString n ++ "):").toList := by
  intro h
  have hhead := congrArg List.head? h
  simp [String.toList_append] at hhead

/-- The lines of the methods tell the methods, whatever section follows them. -/
theorem methodLines_inj {ms ms' : List String} {rest rest' : List (List Char)}
    (hrest : ∀ l ∈ rest.head?, l = []) (hrest' : ∀ l ∈ rest'.head?, l = [])
    (h : methodLines ms ++ rest = methodLines ms' ++ rest') : ms = ms' ∧ rest = rest' := by
  cases ms with
  | nil =>
    cases ms' with
    | nil => exact ⟨rfl, (List.cons.inj h).2⟩
    | cons m' ms' => exact absurd (List.cons.inj h).1 (noMethods_ne_heading _)
  | cons m ms =>
    cases ms' with
    | nil => exact absurd (List.cons.inj h).1.symm (noMethods_ne_heading _)
    | cons m' ms' =>
      obtain ⟨hnames, hrests⟩ := append_inj_of_forall isIndented_of_mem_map isIndented_of_mem_map
        (not_isIndented_of_eq_nil Nat.two_pos hrest) (not_isIndented_of_eq_nil Nat.two_pos hrest')
        (List.cons.inj h).2
      exact ⟨(List.map_inj_right fun _ _ => @indented_injective 2 _ _).mp hnames, hrests⟩

theorem isIndented_of_mem_testLines {tests : List String} :
    ∀ l ∈ testLines tests, IsIndented 4 l := by
  intro l hl
  rw [testLines] at hl
  split at hl
  · rw [List.mem_singleton.mp hl]
    exact isIndented_indented le_rfl _
  · exact isIndented_of_mem_map l hl

/-- The lines of the tests tell the tests, unless one is called as none are. -/
theorem testLines_inj {tests tests' : List String} (h : ∀ t ∈ tests, t ≠ "(no tests)")
    (h' : ∀ t ∈ tests', t ≠ "(no tests)") (heq : testLines tests = testLines tests') :
    tests = tests' := by
  -- the line for no tests is that of a test called so
  have hwritten : ∀ ts, testLines ts =
      (if ts.isEmpty then ["(no tests)"] else ts).map (indented 4) := by
    intro ts
    rw [testLines]
    split <;> rfl
  rw [hwritten, hwritten] at heq
  have hsame := (List.map_inj_right fun _ _ => @indented_injective 4 _ _).mp heq
  cases tests with
  | nil =>
    cases tests' with
    | nil => rfl
    | cons t' tests' => exact absurd (by simpa using (List.cons.inj hsame).1.symm) (h' t' (by simp))
  | cons t tests =>
    cases tests' with
    | nil => exact absurd (by simpa using (List.cons.inj hsame).1) (h t (by simp))
    | cons t' tests' => exact hsame

/-- The first line of an entry is indented less than the tests. -/
theorem not_isIndented_of_mem_head?_entries {es : List TraceEntry} (h : ∀ e ∈ es, IsPlainEntry e) :
    ∀ l ∈ (es.flatMap entryLines).head?, ¬ IsIndented 4 l := by
  cases es with
  | nil => simp
  | cons e es =>
    intro l hl
    obtain rfl : indented 2 e.method = l := by simpa [entryLines] using hl
    have he := h e (by simp)
    exact not_isIndented_method he.method_ne he.method_unindented

/-- The tests of a method end where the next method stands. -/
theorem flatMap_entryLines_inj :
    ∀ {es es' : List TraceEntry}, (∀ e ∈ es, IsPlainEntry e) → (∀ e ∈ es', IsPlainEntry e) →
      es.flatMap entryLines = es'.flatMap entryLines → es = es'
  | [], [], _, _, _ => rfl
  | [], e' :: es', _, _, h => by simp [entryLines] at h
  | e :: es, [], _, _, h => by simp [entryLines] at h
  | e :: es, e' :: es', hes, hes', h => by
    have hrest : ∀ e ∈ es, IsPlainEntry e := fun e'' h'' => hes e'' (by simp [h''])
    have hrest' : ∀ e ∈ es', IsPlainEntry e := fun e'' h'' => hes' e'' (by simp [h''])
    rw [List.flatMap_cons, List.flatMap_cons] at h
    obtain ⟨hmethod, htail⟩ := List.cons.inj h
    obtain ⟨htests, hlines⟩ := append_inj_of_forall isIndented_of_mem_testLines
      isIndented_of_mem_testLines (not_isIndented_of_mem_head?_entries hrest)
      (not_isIndented_of_mem_head?_entries hrest') htail
    have hentry : e = e' := by
      obtain ⟨method, tests⟩ := e
      obtain ⟨method', tests'⟩ := e'
      obtain rfl : method = method' := indented_injective 2 hmethod
      obtain rfl : tests = tests' :=
        testLines_inj (hes _ List.mem_cons_self).test_ne (hes' _ List.mem_cons_self).test_ne htests
      rfl
    rw [hentry, flatMap_entryLines_inj hrest hrest' hlines]

/-- An entry has a line of its own and one for its tests, so it is not taken for the absence of
entries. -/
theorem none_ne_entryLines (e : TraceEntry) (es : List TraceEntry) :
    [indented 2 "(none)"] ≠ (e :: es).flatMap entryLines := by
  intro h
  rw [List.flatMap_cons] at h
  have htail : [] = testLines e.tests ++ es.flatMap entryLines := (List.cons.inj h).2
  have hnil : testLines e.tests = [] := (List.append_eq_nil_iff.mp htail.symm).1
  rw [testLines] at hnil
  split at hnil
  · cases hnil
  · next hne => exact hne (by simpa using hnil)

theorem entriesLines_inj {es es' : List TraceEntry} (hes : ∀ e ∈ es, IsPlainEntry e)
    (hes' : ∀ e ∈ es', IsPlainEntry e) (h : entriesLines es = entriesLines es') : es = es' := by
  cases es with
  | nil =>
    cases es' with
    | nil => rfl
    | cons e' es' => exact absurd h (none_ne_entryLines e' es')
  | cons e es =>
    cases es' with
    | nil => exact absurd h.symm (none_ne_entryLines e es)
    | cons e' es' => exact flatMap_entryLines_inj hes hes' h

theorem isIndented_of_mem_entriesLines {es : List TraceEntry} :
    ∀ l ∈ entriesLines es, IsIndented 2 l := by
  intro l hl
  rw [entriesLines] at hl
  split at hl
  · rw [List.mem_singleton.mp hl]
    exact isIndented_indented le_rfl _
  · obtain ⟨e, -, hl⟩ := List.mem_flatMap.mp hl
    rcases List.mem_cons.mp hl with rfl | hl
    · exact isIndented_indented le_rfl _
    · have hfour := isIndented_of_mem_testLines l hl
      exact List.IsPrefix.trans ⟨List.replicate 2 ' ', rfl⟩ hfour

/-! ## Diagnostics -/

/-- What a diagnostic tells in the text. -/
def told (d : Diagnostic) : Severity × String × String := (d.severity, d.message, d.code)

/-- The labels of severities differ in their first characters. -/
theorem severityLabel_inj {s s' : Severity} {t t' : List Char}
    (h : (severityLabel s).toList ++ t = (severityLabel s').toList ++ t') : s = s' := by
  have hhead := congrArg List.head? h
  cases s <;> cases s' <;> first | rfl | simp [severityLabel] at hhead

/-- The code is what stands behind the last blank. -/
theorem diagnosticLine_inj {d d' : Diagnostic} (h : ' ' ∉ d.code.toList) (h' : ' ' ∉ d'.code.toList)
    (heq : diagnosticLine d = diagnosticLine d') : told d = told d' := by
  obtain ⟨hfront, hcode⟩ := append_cons_inj_of_last (x := ' ')
    (by simpa using h) (by simpa using h') heq
  have hcodes : d.code = d'.code := String.toList_inj.mp (by simpa using hcode)
  simp only [String.toList_append, List.append_assoc] at hfront
  have hseverity : d.severity = d'.severity := severityLabel_inj hfront
  rw [hseverity] at hfront
  have hmessage : d.message = d'.message :=
    String.toList_inj.mp (List.append_cancel_left (List.append_cancel_left hfront))
  rw [told, told, hseverity, hmessage, hcodes]

/-- The lines of diagnostics tell their codes and messages, where no code has a blank. -/
theorem map_told_inj :
    ∀ {ds ds' : List Diagnostic}, (∀ d ∈ ds, ' ' ∉ d.code.toList) →
      (∀ d ∈ ds', ' ' ∉ d.code.toList) → ds.map diagnosticLine = ds'.map diagnosticLine →
      ds.map told = ds'.map told
  | [], [], _, _, _ => rfl
  | [], _ :: _, _, _, h => by cases h
  | _ :: _, [], _, _, h => by cases h
  | d :: ds, d' :: ds', hds, hds', h => by
    obtain ⟨hline, hlines⟩ := List.cons.inj h
    have htold := diagnosticLine_inj (hds d (by simp)) (hds' d' (by simp)) hline
    have hrest := map_told_inj (fun e he => hds e (by simp [he]))
      (fun e he => hds' e (by simp [he])) hlines
    rw [List.map_cons, List.map_cons, htold, hrest]

/-- The section of the diagnostics tells what it says of each. -/
theorem diagnosticLines_inj {ds ds' : List Diagnostic} (h : ∀ d ∈ ds, ' ' ∉ d.code.toList)
    (h' : ∀ d ∈ ds', ' ' ∉ d.code.toList) (heq : diagnosticLines ds = diagnosticLines ds') :
    ds.map told = ds'.map told := by
  apply map_told_inj h h'
  cases ds with
  | nil =>
    cases ds' with
    | nil => rfl
    | cons d' ds' => cases heq
  | cons d ds =>
    cases ds' with
    | nil => cases heq
    | cons d' ds' => exact (List.cons.inj heq).2

/-- No diagnostic is taken for the heading of the covering tests. -/
theorem heading_notMem_diagnosticLines (ds : List Diagnostic) :
    "Covering tests:".toList ∉ diagnosticLines ds := by
  intro h
  rw [diagnosticLines] at h
  split at h
  · cases h
  · rcases List.mem_cons.mp h with h | h
    · cases h
    · obtain ⟨d, -, hline⟩ := List.mem_map.mp h
      have hhead := congrArg List.head? hline
      rw [diagnosticLine] at hhead
      cases hs : d.severity <;> simp [hs, severityLabel, String.toList_append] at hhead

/-- The section of the tests tells the entries and where the diagnostics begin. -/
theorem traceLines_inj {t t' : Option (List TraceEntry)} {ds ds' : List Diagnostic}
    (h : ∀ es ∈ t, ∀ e ∈ es, IsPlainEntry e) (h' : ∀ es ∈ t', ∀ e ∈ es, IsPlainEntry e)
    (heq : traceLines t ++ diagnosticLines ds = traceLines t' ++ diagnosticLines ds') :
    t = t' ∧ diagnosticLines ds = diagnosticLines ds' := by
  have hends : ∀ ds, ∀ l ∈ (diagnosticLines ds).head?, ¬ IsIndented 2 l := fun ds =>
    not_isIndented_of_eq_nil Nat.two_pos eq_nil_of_mem_head?_diagnosticLines
  cases t with
  | none =>
    cases t' with
    | none => exact ⟨rfl, heq⟩
    | some es' =>
      have hlines : diagnosticLines ds = traceLines (some es') ++ diagnosticLines ds' := heq
      exact absurd (by simp [hlines, traceLines]) (heading_notMem_diagnosticLines ds)
  | some es =>
    cases t' with
    | none =>
      have hlines : traceLines (some es) ++ diagnosticLines ds = diagnosticLines ds' := heq
      exact absurd (by simp [← hlines, traceLines]) (heading_notMem_diagnosticLines ds')
    | some es' =>
      have hsections := (List.cons.inj (List.cons.inj heq).2).2
      obtain ⟨hentries, hdiagnostics⟩ := append_inj_of_forall isIndented_of_mem_entriesLines
        isIndented_of_mem_entriesLines (hends ds) (hends ds') hsections
      exact ⟨congrArg some (entriesLines_inj (h es rfl) (h' es' rfl) hentries), hdiagnostics⟩

/-! ## The whole text -/

theorem not_mem_indented {width : Nat} {s : String} (h : '\n' ∉ s.toList) :
    '\n' ∉ indented width s := by
  simpa [indented, List.mem_append, List.mem_replicate] using h

theorem not_mem_heading (n : Nat) :
    '\n' ∉ ("Changed methods (" ++ toString n ++ "):").toList := by
  have hdigits : '\n' ∉ (toString n).toList := by
    intro hmem
    have hdigit : '\n' ∈ Nat.toDigits 10 n := by simpa using hmem
    exact absurd (Nat.isDigit_of_mem_toDigits (by decide) (by decide) hdigit) (by decide)
  simpa [String.toList_append] using hdigits

theorem not_mem_methodLines {ms : List String} (h : ∀ m ∈ ms, '\n' ∉ m.toList) :
    ∀ l ∈ methodLines ms, '\n' ∉ l := by
  intro l hl
  rw [methodLines] at hl
  split at hl
  · rw [List.mem_singleton.mp hl]
    decide
  · rcases List.mem_cons.mp hl with rfl | hl
    · exact not_mem_heading _
    · obtain ⟨m, hm, rfl⟩ := List.mem_map.mp hl
      exact not_mem_indented (h m hm)

theorem not_mem_entryLines {e : TraceEntry} (h : IsPlainEntry e) :
    ∀ l ∈ entryLines e, '\n' ∉ l := by
  intro l hl
  rcases List.mem_cons.mp hl with rfl | hl
  · exact not_mem_indented h.method_line
  · rw [testLines] at hl
    split at hl
    · rw [List.mem_singleton.mp hl]
      decide
    · obtain ⟨t, ht, rfl⟩ := List.mem_map.mp hl
      exact not_mem_indented (h.test_line t ht)

theorem not_mem_traceLines {t : Option (List TraceEntry)}
    (h : ∀ es ∈ t, ∀ e ∈ es, IsPlainEntry e) : ∀ l ∈ traceLines t, '\n' ∉ l := by
  intro l hl
  cases t with
  | none => cases hl
  | some es =>
    have hhead : ∀ l ∈ [[], "Covering tests:".toList], '\n' ∉ l := by decide
    have hl : l ∈ [[], "Covering tests:".toList] ++ entriesLines es := hl
    rcases List.mem_append.mp hl with hl | hl
    · exact hhead l hl
    · rw [entriesLines] at hl
      split at hl
      · rw [List.mem_singleton.mp hl]
        decide
      · obtain ⟨e, he, hl⟩ := List.mem_flatMap.mp hl
        exact not_mem_entryLines (h es rfl e he) l hl

theorem not_mem_diagnosticLines {ds : List Diagnostic} (h : ∀ d ∈ ds, IsPlainDiagnostic d) :
    ∀ l ∈ diagnosticLines ds, '\n' ∉ l := by
  intro l hl
  rw [diagnosticLines] at hl
  split at hl
  · cases hl
  · rcases List.mem_cons.mp hl with rfl | hl
    · exact List.not_mem_nil
    · obtain ⟨d, hd, rfl⟩ := List.mem_map.mp hl
      have hmessage := (h d hd).message_line
      have hcode := (h d hd).code_line
      rw [diagnosticLine]
      cases d.severity <;> simp [severityLabel, String.toList_append, hmessage, hcode]

theorem not_mem_textLines {r : Report} (h : r.IsPlain) : ∀ l ∈ r.textLines, '\n' ∉ l := by
  intro l hl
  rcases List.mem_append.mp hl with hl | hl
  · exact not_mem_methodLines h.changed l hl
  · rcases List.mem_append.mp hl with hl | hl
    · exact not_mem_traceLines h.entries l hl
    · exact not_mem_diagnosticLines h.diagnostics l hl

/-- **The plain text is unambiguous.** If two reports have the same text, they have the same changed
methods, the same traceability, be it absent, empty or a list of entries with their tests, and the
same severities, messages and codes of their diagnostics. A method may be called `(none)`, since an
entry has two lines at least, and the names of the changed methods need only lie within a line. -/
theorem text_unambiguous {r r' : Report} (h : r.IsPlain) (h' : r'.IsPlain)
    (heq : r.text = r'.text) :
    r.changedMethods = r'.changedMethods ∧ r.traceability = r'.traceability ∧
      r.diagnostics.map told = r'.diagnostics.map told := by
  have hlines : r.textLines = r'.textLines := by
    apply unlines_inj (not_mem_textLines h) (not_mem_textLines h')
    rw [← toList_text, ← toList_text, heq]
  obtain ⟨hchanged, hsections⟩ := methodLines_inj eq_nil_of_mem_head?_sections
    eq_nil_of_mem_head?_sections hlines
  obtain ⟨htrace, hdiagnostics⟩ := traceLines_inj h.entries h'.entries hsections
  have htold := diagnosticLines_inj (fun d hd => (h.diagnostics d hd).code_unbroken)
    (fun d hd => (h'.diagnostics d hd).code_unbroken) hdiagnostics
  exact ⟨hchanged, htrace, htold⟩

/-- A report of a method without coverage, as a run that begins at some time makes it. -/
def uncoveredReport (startedAt : String) : Report where
  run := { startedAt := startedAt }
  changedMethods := ["A.run()"]
  traceability := some [⟨"A.run()", []⟩]
  diagnostics := [.missingCoverageRow "A.run()" "7"]

theorem isPlain_uncoveredReport (startedAt : String) : (uncoveredReport startedAt).IsPlain := by
  constructor
  · simp [uncoveredReport]
  · have hentry : IsPlainEntry ⟨"A.run()", []⟩ :=
      ⟨by decide, by decide, by decide, List.forall_mem_nil _, List.forall_mem_nil _⟩
    simpa [uncoveredReport] using hentry
  · have hdiagnostic : IsPlainDiagnostic (.missingCoverageRow "A.run()" "7") :=
      ⟨by decide, by decide, by decide⟩
    simpa [uncoveredReport] using hdiagnostic

/-- Two runs of different times with the same findings: the texts agree, and so does all that they
tell. -/
theorem text_unambiguous_uncoveredReport :
    (uncoveredReport "9:00").IsPlain ∧ (uncoveredReport "9:05").IsPlain ∧
      (uncoveredReport "9:00").text = (uncoveredReport "9:05").text ∧
      (uncoveredReport "9:00").changedMethods = (uncoveredReport "9:05").changedMethods ∧
      (uncoveredReport "9:00").traceability = (uncoveredReport "9:05").traceability ∧
      (uncoveredReport "9:00").diagnostics.map told =
        (uncoveredReport "9:05").diagnostics.map told := by
  have hnine := isPlain_uncoveredReport "9:00"
  have hfive := isPlain_uncoveredReport "9:05"
  have htext : (uncoveredReport "9:00").text = (uncoveredReport "9:05").text := rfl
  exact ⟨hnine, hfive, htext, text_unambiguous hnine hfive htext⟩

end TestImpact.Report
