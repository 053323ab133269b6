import TestImpact.Proofs.Table.Layout
import TestImpact.Proofs.Text.Lines

/-!
# Writing tables and reading them back

A field in double quotes may hold the separator, quotes and any blank, so every text without a line
feed can be written as a field. A row of quoted fields is split into these fields again
(`splitFields?_writtenRow`), whatever the separator is, and a table of such rows is read back as it
was written (`parse_written`).
-/

namespace TestImpact.Table

/-! ## The written form -/

/-- A text with every quote in it doubled. -/
def doubled (s : List Char) : List Char :=
  s.flatMap fun c => if c = '"' then ['"', '"'] else [c]

/-- A text in double quotes. -/
def quote (s : List Char) : List Char := '"' :: (doubled s ++ ['"'])

/-- Some fields, quoted, with the separator between them. -/
def writtenRow (separator : Char) (fields : List String) : List Char :=
  [separator].intercalate (fields.map fun f => quote f.toList)

/-- Some rows, each of them on a line. -/
def written (separator : Char) (rows : List (List String)) : List Char :=
  Text.unlines (rows.map (writtenRow separator))

example : written ';' [["M1", "a \"b\""], ["M2", ""]] =
    "\"M1\";\"a \"\"b\"\"\"\n\"M2\";\"\"\n".toList := by decide

theorem writtenRow_cons_cons (separator : Char) (f f' : String) (fields : List String) :
    writtenRow separator (f :: f' :: fields) =
      quote f.toList ++ separator :: writtenRow separator (f' :: fields) := by
  simp [writtenRow, List.intercalate_cons_cons]

/-! ## Reading a row -/

section Fields

variable {separator : Char}

theorem fieldsFrom_inside {c : Char} (hc : c ≠ '"') (field rest : List Char) :
    fieldsFrom separator true field (c :: rest) = fieldsFrom separator true (c :: field) rest := by
  simp [fieldsFrom, hc]

/-- A quote that no other one follows closes the field. -/
theorem fieldsFrom_close (field : List Char) {rest : List Char} (hrest : rest.head? ≠ some '"') :
    fieldsFrom separator true field ('"' :: rest) = fieldsFrom separator false field rest := by
  cases rest with
  | nil => simp [fieldsFrom]
  | cons c rest =>
    have hc : c ≠ '"' := by simpa using hrest
    simp [fieldsFrom, hc]

/-- A doubled text is read up to the quote that closes it. -/
theorem fieldsFrom_doubled (s field : List Char) {rest : List Char}
    (hrest : rest.head? ≠ some '"') :
    fieldsFrom separator true field (doubled s ++ '"' :: rest) =
      fieldsFrom separator false (s.reverse ++ field) rest := by
  induction s generalizing field with
  | nil => exact fieldsFrom_close field hrest
  | cons c s ih =>
    rw [List.reverse_cons, List.append_assoc, List.singleton_append, ← ih (c :: field)]
    -- a quote is written as two quotes, which are read as one
    by_cases hc : c = '"'
    · subst hc
      rfl
    · have hcons : doubled (c :: s) = c :: doubled s := by simp [doubled, hc]
      rw [hcons, List.cons_append, fieldsFrom_inside hc]

/-- A quoted text is read back, if no quote follows it. -/
theorem fieldsFrom_quote (s : List Char) {rest : List Char} (hrest : rest.head? ≠ some '"') :
    fieldsFrom separator false [] (quote s ++ rest) =
      fieldsFrom separator false s.reverse rest := by
  have hopen : fieldsFrom separator false [] (quote s ++ rest) =
      fieldsFrom separator true [] (doubled s ++ '"' :: rest) := by
    simp [quote, fieldsFrom]
  rw [hopen, fieldsFrom_doubled s [] hrest, List.append_nil]

/-- A separator ends a field. -/
theorem fieldsFrom_separator (hseparator : separator ≠ '"') (field rest : List Char) :
    fieldsFrom separator false field (separator :: rest) =
      (fieldsFrom separator false [] rest).map (Text.trim field.reverse :: ·) := by
  simp [fieldsFrom, hseparator]

/-- A row of quoted fields is split into these fields, which are trimmed. -/
theorem splitFields?_writtenRow (hseparator : separator ≠ '"') {fields : List String}
    (hne : fields ≠ []) :
    splitFields? separator (writtenRow separator fields) =
      some (fields.map fun f => Text.trim f.toList) := by
  induction fields with
  | nil => exact absurd rfl hne
  | cons f fields ih =>
    cases fields with
    | nil =>
      rw [writtenRow, List.map_singleton, List.intercalate_singleton, splitFields?,
        ← List.append_nil (quote f.toList), fieldsFrom_quote _ (by simp)]
      simp [fieldsFrom]
    | cons f' fields =>
      rw [writtenRow_cons_cons, splitFields?, fieldsFrom_quote _ (by simpa using hseparator),
        fieldsFrom_separator hseparator, List.reverse_reverse]
      rw [splitFields?] at ih
      rw [ih (by simp)]
      rfl

end Fields

/-! ## Reading the lines -/

/-- What is read of some fields. -/
def readBack (fields : List String) : List (List Char) := fields.map fun f => Text.trim f.toList

/-- Quoting brings in no character but quotes. -/
theorem not_mem_quote {c : Char} {s : List Char} (hc : c ≠ '"') (hs : c ∉ s) : c ∉ quote s := by
  intro hmem
  rw [quote, List.mem_cons, List.mem_append, List.mem_singleton] at hmem
  rcases hmem with h | h | h
  · exact hc h
  · obtain ⟨c', hc', hin⟩ := List.mem_flatMap.mp h
    split at hin
    · exact hc (by simpa using hin)
    · exact hs (List.mem_singleton.mp hin ▸ hc')
  · exact hc h

section Rows

variable {separator : Char} {fields : List String}

/-- A written row has no characters but those of its fields, quotes and separators. -/
theorem not_mem_writtenRow {c : Char} (hc : c ≠ '"') (hseparator : c ≠ separator)
    (h : ∀ f ∈ fields, c ∉ f.toList) : c ∉ writtenRow separator fields := by
  induction fields with
  | nil => exact List.not_mem_nil
  | cons f fields ih =>
    have hf := not_mem_quote hc (h f (by simp))
    cases fields with
    | nil =>
      rw [writtenRow, List.map_singleton, List.intercalate_singleton]
      exact hf
    | cons f' fields =>
      rw [writtenRow_cons_cons, List.mem_append, List.mem_cons]
      rintro (hin | hin | hin)
      · exact hf hin
      · exact hseparator hin
      · exact ih (fun f'' h'' => h f'' (List.mem_cons_of_mem _ h'')) hin

/-- A written row begins and ends with a quote. -/
theorem exists_writtenRow_eq (separator : Char) (hne : fields ≠ []) :
    ∃ inner, writtenRow separator fields = '"' :: (inner ++ ['"']) := by
  induction fields with
  | nil => exact absurd rfl hne
  | cons f fields ih =>
    cases fields with
    | nil => exact ⟨doubled f.toList, List.intercalate_singleton⟩
    | cons f' fields =>
      obtain ⟨inner, hinner⟩ := ih (by simp)
      rw [writtenRow_cons_cons, hinner]
      exact ⟨doubled f.toList ++ '"' :: separator :: '"' :: inner, by simp [quote]⟩

/-- Trimming takes nothing off a written row. -/
theorem trim_writtenRow (separator : Char) (hne : fields ≠ []) :
    Text.trim (writtenRow separator fields) = writtenRow separator fields := by
  obtain ⟨inner, hinner⟩ := exists_writtenRow_eq separator hne
  have hquote : Text.isBlank '"' = false := by decide
  apply Text.Tight.trim_eq
  rw [hinner]
  constructor
  · intro c hc
    cases hc
    exact hquote
  · intro c hc
    rw [← List.cons_append, List.getLast?_concat] at hc
    cases hc
    exact hquote

/-- A written row is neither blank nor a comment. -/
theorem isData_writtenRow (separator : Char) (hne : fields ≠ []) :
    isData (writtenRow separator fields) = true := by
  obtain ⟨inner, hinner⟩ := exists_writtenRow_eq separator hne
  rw [hinner]
  rfl

end Rows

/-! ## Reading a table -/

/-- Whether some rows can be written with a separator: no line feed would break a line, and no row
is without fields. -/
structure CanWrite (separator : Char) (rows : List (List String)) : Prop where
  separator_ne_quote : separator ≠ '"'
  separator_ne_feed : separator ≠ '\n'
  no_feed : ∀ fields ∈ rows, ∀ f ∈ fields, '\n' ∉ f.toList
  not_empty : ∀ fields ∈ rows, fields ≠ []

namespace CanWrite

variable {kind : Kind} {separator : Char} {rows : List (List String)}

/-- The lines of a written table are its written rows. -/
theorem lines_written (h : CanWrite separator rows) :
    Text.lines (dropMark (written separator rows)) = rows.map (writtenRow separator) := by
  have hmark : dropMark (written separator rows) = written separator rows := by
    cases rows with
    | nil => rfl
    | cons fields rows =>
      obtain ⟨inner, hinner⟩ := exists_writtenRow_eq separator (h.not_empty fields (by simp))
      rw [written, List.map_cons, Text.unlines, List.flatMap_cons, hinner]
      rfl
  rw [hmark, written, Text.lines_unlines_of_getLast?]
  intro l hl
  obtain ⟨fields, hfields, rfl⟩ := List.mem_map.mp hl
  refine ⟨not_mem_writtenRow (by decide) h.separator_ne_feed.symm (h.no_feed fields hfields), ?_⟩
  obtain ⟨inner, hinner⟩ := exists_writtenRow_eq separator (h.not_empty fields hfields)
  rw [hinner, ← List.cons_append, List.getLast?_concat]
  decide

theorem trimmedLines_written (h : CanWrite separator rows) :
    trimmedLines (written separator rows) = rows.map (writtenRow separator) := by
  rw [trimmedLines, h.lines_written, List.map_map]
  exact List.map_congr_left fun fields hfields => trim_writtenRow _ (h.not_empty fields hfields)

/-- A written text is a table of the rows it was written for. -/
theorem isTableOf (h : CanWrite separator rows) :
    IsTableOf separator (written separator rows) (rows.map readBack) := by
  constructor
  · intro line hline
    rw [h.trimmedLines_written] at hline
    obtain ⟨fields, hfields, rfl⟩ := List.mem_map.mp hline
    exact isData_writtenRow _ (h.not_empty fields hfields)
  · rw [h.trimmedLines_written, List.map_map, List.map_map]
    exact List.map_congr_left fun fields hfields =>
      splitFields?_writtenRow h.separator_ne_quote (h.not_empty fields hfields)

end CanWrite

/-- A text that can stand in a cell and is read from it as it is. -/
def Plain (s : String) : Prop := '\n' ∉ s.toList ∧ Text.Tight s.toList

instance : DecidablePred Plain := fun s =>
  inferInstanceAs (Decidable ('\n' ∉ s.toList ∧ Text.Tight s.toList))

theorem Plain.ofList_trim {s : String} (h : Plain s) : String.ofList (Text.trim s.toList) = s := by
  rw [h.2.trim_eq, String.ofList_toList]

section ReadBack

variable {id last : String}

theorem firstField_readBack (hid : Plain id) (fields : List String) :
    firstField (readBack (id :: fields)) = id :=
  hid.ofList_trim

theorem lastField_readBack (hlast : Plain last) (fields : List String) :
    lastField (readBack (fields ++ [last])) = last := by
  rw [lastField, readBack, List.map_append, List.map_singleton, List.getLast?_concat]
  exact hlast.ofList_trim

end ReadBack

/-- Rows with an id, a last cell and some cells between these are read back without the cells
between, whatever the rows are made of. -/
theorem parseRows_written {α : Type} (kind : Kind) {separator : Char} (hquote : separator ≠ '"')
    (hfeed : separator ≠ '\n') {rows : List α} {id last : α → String} (between : α → List String)
    (hdistinct : (rows.map id).Nodup)
    (hid : ∀ r ∈ rows, id r ≠ "" ∧ Plain (id r))
    (hbetween : ∀ r ∈ rows, kind.allows ((between r).length + 2) = true ∧
      ∀ f ∈ between r, '\n' ∉ f.toList)
    (hlast : ∀ r ∈ rows, Plain (last r)) :
    parseRows kind separator
        (written separator (rows.map fun r => id r :: (between r ++ [last r]))) =
      .ok (rows.map fun r => (id r, last r)) := by
  have hwrite : CanWrite separator (rows.map fun r => id r :: (between r ++ [last r])) := by
    refine ⟨hquote, hfeed, ?_, ?_⟩
    · intro fields hfields f hf
      obtain ⟨r, hr, rfl⟩ := List.mem_map.mp hfields
      rw [List.mem_cons, List.mem_append, List.mem_singleton] at hf
      rcases hf with rfl | hf | rfl
      · exact (hid r hr).2.1
      · exact (hbetween r hr).2 f hf
      · exact (hlast r hr).1
    · intro fields hfields
      obtain ⟨r, -, rfl⟩ := List.mem_map.mp hfields
      exact List.cons_ne_nil _ _
  have hfirst : ∀ r ∈ rows, firstField (readBack (id r :: (between r ++ [last r]))) = id r :=
    fun r hr => firstField_readBack (hid r hr).2 _
  have hlast' : ∀ r ∈ rows, lastField (readBack (id r :: (between r ++ [last r]))) = last r :=
    fun r hr => lastField_readBack (hlast r hr) (id r :: between r)
  -- what has been written is a table of these rows; its first and last fields are what is kept
  have hkept := hwrite.isTableOf.parseRows_eq kind ?_ ?_ ?_
  · rw [hkept, List.map_map, List.map_map]
    exact congrArg Except.ok
      (List.map_congr_left fun r hr => Prod.ext (hfirst r hr) (hlast' r hr))
  · simp only [List.forall_mem_map]
    intro r hr
    rw [readBack, List.length_map, List.length_cons, List.length_append, List.length_singleton]
    exact (hbetween r hr).1
  · simp only [List.forall_mem_map]
    intro r hr
    rw [hfirst r hr]
    exact (hid r hr).1
  · rw [List.map_map, List.map_map]
    exact (List.map_congr_left hfirst).symm ▸ hdistinct

/-- **Written tables are read back.** Rows with distinct ids come back as they were written, in
their order. A row of the coverage table may have one more column, which is passed over. -/
theorem parse_written (format : Format) (hquote : format.separator ≠ '"')
    (hfeed : format.separator ≠ '\n') :
    (∀ kind, kind ≠ .coverage → ∀ rows : List NamedRow,
      (rows.map (·.id)).Nodup →
      (∀ r ∈ rows, r.id ≠ "" ∧ Plain r.id ∧ Plain r.name) →
      parseNamed kind format (written format.separator (rows.map fun r => [r.id, r.name])) =
        .ok rows) ∧
    ∀ rows : List (CoverageRow × Option String),
      (rows.map (·.1.methodId)).Nodup →
      (∀ r ∈ rows, r.1.methodId ≠ "" ∧ Plain r.1.methodId ∧ (∀ note ∈ r.2, '\n' ∉ note.toList) ∧
        Plain r.1.testIds) →
      parseCoverage format (written format.separator
          (rows.map fun r => r.1.methodId :: (r.2.toList ++ [r.1.testIds]))) =
        .ok ⟨rows.map (·.1), format.delimiter⟩ := by
  constructor
  · intro kind hkind rows hdistinct hrows
    have hallows : kind.allows 2 = true := by
      cases kind with
      | coverage => exact absurd rfl hkind
      | method => rfl
      | test => rfl
    have hread := parseRows_written kind hquote hfeed (fun _ => []) hdistinct
      (fun r hr => ⟨(hrows r hr).1, (hrows r hr).2.1⟩) (fun r hr => ⟨hallows, by simp⟩)
      (fun r hr => (hrows r hr).2.2)
    simp only [List.nil_append] at hread
    rw [parseNamed_eq_map, hread]
    show Except.ok ((rows.map fun r => (r.id, r.name)).map fun p => NamedRow.mk p.1 p.2) = _
    rw [List.map_map]
    exact congrArg Except.ok (List.map_id rows)
  · intro rows hdistinct hrows
    have hallows : ∀ note : Option String,
        Kind.coverage.allows (note.toList.length + 2) = true := by
      intro note
      cases note <;> rfl
    have hread := parseRows_written .coverage hquote hfeed (·.2.toList) hdistinct
      (fun r hr => ⟨(hrows r hr).1, (hrows r hr).2.1⟩)
      (fun r hr => ⟨hallows r.2, fun f hf => (hrows r hr).2.2.1 f (Option.mem_toList.mp hf)⟩)
      (fun r hr => (hrows r hr).2.2.2)
    rw [parseCoverage_eq_map, hread]
    show Except.ok (Coverage.mk ((rows.map fun r => (r.1.methodId, r.1.testIds)).map fun p =>
      ⟨p.1, p.2⟩) format.delimiter) = _
    rw [List.map_map]
    rfl

/-- The tab between the fields is a blank, the cells hold tabs and quotes, and one name is empty. -/
theorem parse_written_tabbed :
    let format : Format := ⟨'\t', ";"⟩
    let named : List NamedRow := [⟨"M1", "say \"a\tb\""⟩, ⟨"#2", ""⟩]
    let coverage : List (CoverageRow × Option String) :=
      [(⟨"M1", "T1;T2"⟩, some " of\t\"old\" "), (⟨"#2", "T\t3"⟩, none)]
    (format.separator ≠ '"' ∧ format.separator ≠ '\n') ∧
    (Kind.method ≠ .coverage ∧ (named.map (·.id)).Nodup ∧
      (∀ r ∈ named, r.id ≠ "" ∧ Plain r.id ∧ Plain r.name) ∧
      parseNamed .method format (written '\t' (named.map fun r => [r.id, r.name])) = .ok named) ∧
    (coverage.map (·.1.methodId)).Nodup ∧
    (∀ r ∈ coverage, r.1.methodId ≠ "" ∧ Plain r.1.methodId ∧ (∀ note ∈ r.2, '\n' ∉ note.toList) ∧
      Plain r.1.testIds) ∧
    parseCoverage format (written '\t'
        (coverage.map fun r => r.1.methodId :: (r.2.toList ++ [r.1.testIds]))) =
      .ok ⟨coverage.map (·.1), ";"⟩ := by
  intro format named coverage
  obtain ⟨hnamed, hcoverage⟩ := parse_written format (by decide) (by decide)
  have hids : (named.map (·.id)).Nodup := by decide
  have hplain : ∀ r ∈ named, r.id ≠ "" ∧ Plain r.id ∧ Plain r.name := by decide
  have hids' : (coverage.map (·.1.methodId)).Nodup := by decide
  have hplain' : ∀ r ∈ coverage, r.1.methodId ≠ "" ∧ Plain r.1.methodId ∧
      (∀ note ∈ r.2, '\n' ∉ note.toList) ∧ Plain r.1.testIds := by decide
  exact ⟨by decide, ⟨by decide, hids, hplain, hnamed .method (by decide) named hids hplain⟩,
    hids', hplain', hcoverage coverage hids' hplain'⟩

end TestImpact.Table
