import TestImpact.Proofs.Table.RoundTrip
import TestImpact.Settings.Basic

/-!
# Tables without quotes

Cells that hold neither the separator nor a quote nor a blank at an end can be written as they are,
and the rows should come back whatever the separator is. They do if it is visible. A line is trimmed
before it is split, though, and a separator that is a blank is trimmed with it where the last cell
is empty (`trim_unquotedRow`): such a row comes back as a row of one column and is refused. So with
a tab or a space between the columns a table of coverage is read back exactly if no row is without
tests (`parseCoverage_unquoted_iff`).
-/

namespace TestImpact.Table

/-! ## The written form -/

/-- Whether a cell can be written without quotes. -/
structure NeedsNoQuotes (separator : Char) (cell : String) : Prop where
  no_separator : separator ∉ cell.toList
  no_quote : '"' ∉ cell.toList
  oneLine : Text.OneLine cell.toList
  tight : Text.Tight cell.toList

/-- Whether rows of coverage can be written without quotes: no id begins like a comment or with a
byte order mark. -/
structure NeedNoQuotes (separator : Char) (rows : List CoverageRow) : Prop where
  distinct : (rows.map (·.methodId)).Nodup
  named : ∀ r ∈ rows, r.methodId ≠ ""
  no_comment : ∀ r ∈ rows, r.methodId.toList.head? ≠ some '#'
  no_mark : ∀ r ∈ rows, r.methodId.toList.head? ≠ some '\uFEFF'
  id : ∀ r ∈ rows, NeedsNoQuotes separator r.methodId
  tests : ∀ r ∈ rows, NeedsNoQuotes separator r.testIds

/-- A row of coverage with the separator between its cells. -/
def unquotedRow (separator : Char) (r : CoverageRow) : List Char :=
  r.methodId.toList ++ separator :: r.testIds.toList

/-- Rows of coverage, each of them on a line. -/
def unquoted (separator : Char) (rows : List CoverageRow) : List Char :=
  Text.unlines (rows.map (unquotedRow separator))

/-- Every accepted separator lets rows be written without quotes and read back. -/
def ReadsUnquoted : Prop :=
  ∀ name (format : Format), Settings.separator? name = .ok format.separator →
    ∀ rows, NeedNoQuotes format.separator rows →
      parseCoverage format (unquoted format.separator rows) = .ok ⟨rows, format.delimiter⟩

/-- No setting makes a quote or a line feed the separator. -/
theorem separator?_ne {name : String} {c : Char} (h : Settings.separator? name = .ok c) :
    c ≠ '"' ∧ c ≠ '\n' := by
  unfold Settings.separator? at h
  split at h
  · cases h
    decide
  · split at h
    · split at h
      · cases h
      · next hc =>
        cases h
        exact not_or.mp hc
    · cases h

/-! ## Reading a row -/

section Rows

variable {separator : Char} {s t : List Char}

/-- A text without quotes and separators is taken as it is. -/
theorem fieldsFrom_unquoted (hseparator : separator ∉ s) (hquote : '"' ∉ s)
    (field rest : List Char) :
    fieldsFrom separator false field (s ++ rest) =
      fieldsFrom separator false (s.reverse ++ field) rest := by
  induction s generalizing field with
  | nil => rfl
  | cons c s ih =>
    have hc : c ≠ separator := fun hc => hseparator (by simp [hc])
    have hc' : c ≠ '"' := fun hc => hquote (by simp [hc])
    have hpush : fieldsFrom separator false field (c :: (s ++ rest)) =
        fieldsFrom separator false (c :: field) (s ++ rest) := by
      simp [fieldsFrom, hc, hc']
    rw [List.cons_append, hpush,
      ih (fun h => hseparator (by simp [h])) fun h => hquote (by simp [h])]
    simp

/-- A text without separators is one field. -/
theorem splitFields?_unquoted (hseparator : separator ∉ s) (hquote : '"' ∉ s) :
    splitFields? separator s = some [Text.trim s] := by
  have hread := fieldsFrom_unquoted hseparator hquote [] []
  rw [List.append_nil, List.append_nil] at hread
  rw [splitFields?, hread]
  simp [fieldsFrom]

/-- The text before the first separator is the first field. -/
theorem splitFields?_separator (hne : separator ≠ '"') (hseparator : separator ∉ s)
    (hquote : '"' ∉ s) (rest : List Char) :
    splitFields? separator (s ++ separator :: rest) =
      (splitFields? separator rest).map (Text.trim s :: ·) := by
  rw [splitFields?, fieldsFrom_unquoted hseparator hquote, fieldsFrom_separator hne,
    List.append_nil, List.reverse_reverse]
  rfl

/-- Whether the separator of a row is trimmed: it is a blank, and nothing follows it. -/
def losesSeparator (separator : Char) (r : CoverageRow) : Bool :=
  Text.isBlank separator && r.testIds.isEmpty

/-- The cells of a row that are left when its line is trimmed. -/
def cellsLeft (separator : Char) (r : CoverageRow) : List (List Char) :=
  if losesSeparator separator r then [r.methodId.toList] else [r.methodId.toList, r.testIds.toList]

variable {rows : List CoverageRow} {r : CoverageRow}

/-- A row that keeps its separator has no blank at its ends. -/
theorem tight_unquotedRow (h : NeedNoQuotes separator rows) (hr : r ∈ rows)
    (hkeeps : losesSeparator separator r = false) : Text.Tight (unquotedRow separator r) := by
  constructor
  · have hne : r.methodId.toList ≠ [] := fun hnil => h.named r hr (String.toList_eq_nil_iff.mp hnil)
    rw [unquotedRow, List.head?_append, Option.or_of_isSome (List.isSome_head?.mpr hne)]
    exact (h.id r hr).tight.1
  · by_cases htests : r.testIds.toList = []
    · have hseparator : Text.isBlank separator = false := by
        simpa [losesSeparator, String.toList_eq_nil_iff.mp htests] using hkeeps
      rw [unquotedRow, htests, List.getLast?_concat]
      rintro c ⟨⟩
      exact hseparator
    · rw [unquotedRow, List.getLast?_append, List.getLast?_cons_of_ne_nil htests,
        Option.or_of_isSome (List.getLast?_isSome.mpr htests)]
      exact (h.tests r hr).tight.2

/-- Trimming a row takes a separator off it that is lost, and nothing else. -/
theorem trim_unquotedRow (h : NeedNoQuotes separator rows) (hr : r ∈ rows) :
    Text.trim (unquotedRow separator r) =
      if losesSeparator separator r then r.methodId.toList else unquotedRow separator r := by
  cases hloses : losesSeparator separator r with
  | false => exact (tight_unquotedRow h hr hloses).trim_eq
  | true =>
    obtain ⟨hblank, hempty⟩ := Bool.and_eq_true_iff.mp hloses
    have htests : r.testIds.toList = [] := String.toList_eq_nil_iff.mpr (by simpa using hempty)
    rw [unquotedRow, htests, Text.trim_concat hblank]
    exact (h.id r hr).tight.trim_eq

/-- A trimmed row has the cells that trimming has left. -/
theorem splitFields?_trim (hne : separator ≠ '"') (h : NeedNoQuotes separator rows)
    (hr : r ∈ rows) :
    splitFields? separator (Text.trim (unquotedRow separator r)) =
      some (cellsLeft separator r) := by
  have hid := h.id r hr
  have htests := h.tests r hr
  rw [trim_unquotedRow h hr, cellsLeft]
  split
  · rw [splitFields?_unquoted hid.no_separator hid.no_quote, hid.tight.trim_eq]
  · rw [unquotedRow, splitFields?_separator hne hid.no_separator hid.no_quote,
      splitFields?_unquoted htests.no_separator htests.no_quote, hid.tight.trim_eq,
      htests.tight.trim_eq]
    rfl

/-- A trimmed row is neither blank nor a comment. -/
theorem isData_trim (h : NeedNoQuotes separator rows) (hr : r ∈ rows) :
    isData (Text.trim (unquotedRow separator r)) = true := by
  have hcomment := h.no_comment r hr
  cases hid : r.methodId.toList with
  | nil => exact absurd (String.toList_eq_nil_iff.mp hid) (h.named r hr)
  | cons c id =>
    rw [hid] at hcomment
    rw [trim_unquotedRow h hr]
    split <;> simpa [isData, unquotedRow, hid] using hcomment

/-! ## Reading a table -/

/-- A text without quotes is a table of the cells that are left of its rows. -/
theorem isTableOf_unquoted (hne : separator ≠ '"') (hfeed : separator ≠ '\n')
    (h : NeedNoQuotes separator rows) :
    IsTableOf separator (unquoted separator rows) (rows.map (cellsLeft separator)) := by
  have hmark : dropMark (unquoted separator rows) = unquoted separator rows := by
    cases rows with
    | nil => rfl
    | cons r rows =>
      have hmark := h.no_mark r List.mem_cons_self
      cases hid : r.methodId.toList with
      | nil => exact absurd (String.toList_eq_nil_iff.mp hid) (h.named r List.mem_cons_self)
      | cons c id =>
        rw [hid] at hmark
        have hc : c ≠ '\uFEFF' := by simpa using hmark
        simp [unquoted, Text.unlines, unquotedRow, hid, dropMark, hc]
  have hlines : trimmedLines (unquoted separator rows) =
      rows.map fun r => Text.trim (unquotedRow separator r) := by
    rw [trimmedLines, hmark, unquoted, Text.map_trim_lines_unlines, List.map_map]
    · rfl
    · intro l hl
      obtain ⟨r, hr, rfl⟩ := List.mem_map.mp hl
      rw [unquotedRow, List.mem_append, List.mem_cons]
      rintro (hin | hin | hin)
      · exact (h.id r hr).oneLine.1 hin
      · exact hfeed hin.symm
      · exact (h.tests r hr).oneLine.1 hin
  constructor
  · rw [hlines, List.forall_mem_map]
    exact fun r hr => isData_trim h hr
  · rw [hlines, List.map_map, List.map_map]
    exact List.map_congr_left fun r hr => splitFields?_trim hne h hr

/-- Trimming leaves the id of a row. -/
theorem firstField_cellsLeft (separator : Char) (r : CoverageRow) :
    firstField (cellsLeft separator r) = r.methodId := by
  unfold cellsLeft
  split <;> exact String.ofList_toList

/-- Trimming leaves the tests of a row, unless it takes the separator. -/
theorem lastField_cellsLeft (hkeeps : losesSeparator separator r = false) :
    lastField (cellsLeft separator r) = r.testIds := by
  rw [cellsLeft, hkeeps]
  exact String.ofList_toList

theorem map_firstField_cellsLeft (separator : Char) (rows : List CoverageRow) :
    (rows.map (cellsLeft separator)).map firstField = rows.map (·.methodId) := by
  rw [List.map_map]
  exact List.map_congr_left fun r _ => firstField_cellsLeft separator r

/-- The number of columns is wrong if and only if the separator is lost. -/
theorem allows_cellsLeft (separator : Char) (r : CoverageRow) :
    Kind.coverage.allows (cellsLeft separator r).length = !losesSeparator separator r := by
  unfold cellsLeft
  cases losesSeparator separator r <;> rfl

end Rows

section Tables

variable {format : Format} (hquote : format.separator ≠ '"') (hfeed : format.separator ≠ '\n')

include hquote hfeed

/-- Rows that keep their separators are read back. -/
theorem parseCoverage_of_keeps {rows : List CoverageRow}
    (h : NeedNoQuotes format.separator rows)
    (hkeeps : ∀ r ∈ rows, losesSeparator format.separator r = false) :
    parseCoverage format (unquoted format.separator rows) = .ok ⟨rows, format.delimiter⟩ := by
  have hread := (isTableOf_unquoted hquote hfeed h).parseRows_eq .coverage ?_ ?_ ?_
  · have hcells : ∀ r ∈ rows, CoverageRow.mk (firstField (cellsLeft format.separator r))
        (lastField (cellsLeft format.separator r)) = id r := by
      intro r hr
      rw [firstField_cellsLeft, lastField_cellsLeft (hkeeps r hr)]
      rfl
    have hrows := List.map_congr_left hcells
    rw [List.map_id] at hrows
    rw [parseCoverage_eq_map, hread, Except.map, List.map_map, List.map_map]
    exact congrArg (fun rows => Except.ok (Coverage.mk rows format.delimiter)) hrows
  · rw [List.forall_mem_map]
    intro r hr
    rw [allows_cellsLeft, hkeeps r hr]
    rfl
  · rw [List.forall_mem_map]
    intro r hr
    rw [firstField_cellsLeft]
    exact h.named r hr
  · rw [map_firstField_cellsLeft]
    exact h.distinct

/-- The first row that loses its separator is refused. -/
theorem parseCoverage_of_loses {front rest : List CoverageRow} {r : CoverageRow}
    (h : NeedNoQuotes format.separator (front ++ r :: rest))
    (hfront : ∀ r' ∈ front, losesSeparator format.separator r' = false)
    (hloses : losesSeparator format.separator r = true) :
    parseCoverage format (unquoted format.separator (front ++ r :: rest)) =
      .error (.invalidRow .coverage (front.length + 1) (.columns 1)) := by
  have htable := isTableOf_unquoted hquote hfeed h
  have hcells : (cellsLeft format.separator r).length = 1 := by simp [cellsLeft, hloses]
  rw [List.map_append, List.map_cons] at htable
  have hfault := htable.parseRows_columns .coverage ?_ ?_ ?_ ?_
  · rw [parseCoverage_eq_map, hfault, List.length_map, hcells]
    rfl
  · rw [List.forall_mem_map]
    intro r' hr'
    rw [allows_cellsLeft, hfront r' hr']
    rfl
  · rw [List.forall_mem_map]
    intro r' hr'
    rw [firstField_cellsLeft]
    exact h.named r' (List.mem_append_left _ hr')
  · have hdistinct := h.distinct
    rw [List.map_append, List.nodup_append] at hdistinct
    rw [map_firstField_cellsLeft]
    exact hdistinct.1
  · rw [allows_cellsLeft, hloses]
    rfl

end Tables

/-- **Tables without quotes are read back** if the separator is visible or every row has tests. If
not, the first row without tests is refused, for its separator has been trimmed. -/
theorem parseCoverage_unquoted_iff {format : Format} {name : String}
    (hname : Settings.separator? name = .ok format.separator) {rows : List CoverageRow}
    (hrows : NeedNoQuotes format.separator rows) :
    (parseCoverage format (unquoted format.separator rows) = .ok ⟨rows, format.delimiter⟩ ↔
      (Text.isBlank format.separator = true → ∀ r ∈ rows, r.testIds ≠ "")) ∧
    ∀ front r rest, rows = front ++ r :: rest → Text.isBlank format.separator = true →
      (∀ r' ∈ front, r'.testIds ≠ "") → r.testIds = "" →
      parseCoverage format (unquoted format.separator rows) =
        .error (.invalidRow .coverage (front.length + 1) (.columns 1)) := by
  obtain ⟨hquote, hfeed⟩ := separator?_ne hname
  have hrefused : ∀ front r rest, rows = front ++ r :: rest →
      Text.isBlank format.separator = true → (∀ r' ∈ front, r'.testIds ≠ "") → r.testIds = "" →
      parseCoverage format (unquoted format.separator rows) =
        .error (.invalidRow .coverage (front.length + 1) (.columns 1)) := by
    rintro front r rest rfl hblank hfront htests
    apply parseCoverage_of_loses hquote hfeed hrows
    · intro r' hr'
      simp [losesSeparator, hfront r' hr']
    · simp [losesSeparator, hblank, htests]
  refine ⟨⟨fun hread hblank r hr htests => ?_, fun htests => ?_⟩, hrefused⟩
  · -- of the rows without tests one is the first, and it is refused
    have hfound : (rows.find? (·.testIds = "")).isSome = true :=
      List.find?_isSome.mpr ⟨r, hr, by simpa using htests⟩
    obtain ⟨first, hfirst⟩ := Option.isSome_iff_exists.mp hfound
    obtain ⟨hempty, front, rest, heq, hfront⟩ := List.find?_eq_some_iff_append.mp hfirst
    rw [hrefused front first rest heq hblank (by simpa using hfront) (by simpa using hempty)]
      at hread
    cases hread
  · apply parseCoverage_of_keeps hquote hfeed hrows
    intro r hr
    cases hblank : Text.isBlank format.separator with
    | false => simp [losesSeparator, hblank]
    | true => simp [losesSeparator, htests hblank r hr]

/-- Two methods, the second of which has no test. -/
def oneUntested : List CoverageRow := [⟨"M1", "T1_T2"⟩, ⟨"M2", ""⟩]

theorem needNoQuotes_oneUntested {separator : Char} (h : separator = '\t' ∨ separator = ';') :
    NeedNoQuotes separator oneUntested := by
  have hcell : ∀ cell ∈ ["M1", "M2", "T1_T2", ""], NeedsNoQuotes separator cell := by
    intro cell hcell
    have hplain : separator ∉ cell.toList ∧ '"' ∉ cell.toList ∧ Text.OneLine cell.toList ∧
        Text.Tight cell.toList := by
      rcases h with rfl | rfl <;> revert cell <;> decide
    exact ⟨hplain.1, hplain.2.1, hplain.2.2.1, hplain.2.2.2⟩
  constructor
  · decide
  · decide
  · decide
  · decide
  · simpa [oneUntested] using ⟨hcell "M1" (by simp), hcell "M2" (by simp)⟩
  · simpa [oneUntested] using ⟨hcell "T1_T2" (by simp), hcell "" (by simp)⟩

/-- A visible separator keeps the empty cell, and a tab loses it. -/
theorem parseCoverage_unquoted_iff_oneUntested :
    Settings.separator? ";" = .ok ';' ∧ Settings.separator? "tab" = .ok '\t' ∧
    (NeedNoQuotes ';' oneUntested ∧ NeedNoQuotes '\t' oneUntested) ∧
    parseCoverage ⟨';', "_"⟩ (unquoted ';' oneUntested) = .ok ⟨oneUntested, "_"⟩ ∧
    parseCoverage ⟨'\t', "_"⟩ (unquoted '\t' oneUntested) =
      .error (.invalidRow .coverage 2 (.columns 1)) := by
  have hsemicolon : Settings.separator? ";" = .ok (Format.mk ';' "_").separator := rfl
  have htabName : Settings.separator? "tab" = .ok (Format.mk '\t' "_").separator := rfl
  have hvisible : NeedNoQuotes ';' oneUntested := needNoQuotes_oneUntested (.inr rfl)
  have htab : NeedNoQuotes '\t' oneUntested := needNoQuotes_oneUntested (.inl rfl)
  refine ⟨hsemicolon, htabName, ⟨hvisible, htab⟩, ?_, ?_⟩
  · apply (parseCoverage_unquoted_iff hsemicolon hvisible).1.mpr
    exact fun hblank => absurd hblank (by decide)
  · exact (parseCoverage_unquoted_iff htabName htab).2 [⟨"M1", "T1_T2"⟩] ⟨"M2", ""⟩ [] rfl
      (by decide) (by decide) rfl

/-- Not every accepted separator lets rows be read back. -/
theorem not_readsUnquoted : ¬ ReadsUnquoted := by
  intro hclaim
  have htab : NeedNoQuotes '\t' ([⟨"M1", "T1_T2"⟩] ++ ⟨"M2", ""⟩ :: []) :=
    needNoQuotes_oneUntested (.inl rfl)
  have hread := hclaim "tab" ⟨'\t', "_"⟩ rfl _ htab
  rw [parseCoverage_of_loses (by decide) (by decide) htab (by decide) (by decide)] at hread
  cases hread

end TestImpact.Table
