import TestImpact.Proofs.Table.Rows

/-!
# The grammar of tables

What a table may hold is said here of its lines, by their positions in the text: every line that
holds a row has to be closed and to fit the rows above it (`Accepts`). If some line does not, the
first one is blamed, but an open quote goes before everything else (`FirstFault`). The parsers
accept exactly these texts and blame exactly these lines (`parse_meets_grammar`).
-/

namespace TestImpact.Table

/-! ## Lines that hold rows -/

/-- The line at a position of a text holds a row. Positions count all lines, from zero. -/
def HoldsRow (text : List Char) (i : Nat) (line : List Char) : Prop :=
  (∃ raw, (Text.lines (dropMark text))[i]? = some raw ∧ line = Text.trim raw) ∧ isData line = true

/-- The line at a position of a text holds a row with an open quote. -/
def Unclosed (separator : Char) (text : List Char) (i : Nat) : Prop :=
  ∃ line, HoldsRow text i line ∧ splitFields? separator line = none

/-- The line at a position of a text holds a row of some fields. -/
def FieldsAt (separator : Char) (text : List Char) (i : Nat) (fields : List (List Char)) : Prop :=
  ∃ line, HoldsRow text i line ∧ splitFields? separator line = some fields

/-- The ids of the rows above a line. -/
def TakenAbove (separator : Char) (text : List Char) (i : Nat) (id : String) : Prop :=
  ∃ j < i, ∃ fields, FieldsAt separator text j fields ∧ firstField fields = id

/-- Whether a text is a table: no quote is open, and every row has its columns and an id that no
row above it has. -/
structure Accepts (kind : Kind) (separator : Char) (text : List Char) : Prop where
  closed : ∀ i, ¬ Unclosed separator text i
  fits : ∀ i fields, FieldsAt separator text i fields →
    Fits kind (TakenAbove separator text i) fields

/-- The first fault of a text that is no table. Lines are counted from one in it. -/
inductive FirstFault (kind : Kind) (separator : Char) (text : List Char) : TableError → Prop
  | unclosed {i} : Unclosed separator text i → (∀ j < i, ¬ Unclosed separator text j) →
      FirstFault kind separator text (.invalidRow kind (i + 1) .unterminatedQuote)
  | misfit {i fields e} : (∀ j, ¬ Unclosed separator text j) →
      (∀ j < i, ∀ above, FieldsAt separator text j above →
        Fits kind (TakenAbove separator text j) above) →
      FieldsAt separator text i fields →
      Misfit kind (TakenAbove separator text i) (i + 1) fields e →
      FirstFault kind separator text e

/-- The first and the last field of every line that holds a row, in the order of the lines. -/
def rowsOf (separator : Char) (text : List Char) : List (String × String) :=
  (((Text.lines (dropMark text)).map Text.trim).filter isData).map fun line =>
    let fields := (splitFields? separator line).getD []
    (firstField fields, lastField fields)

section Positions

variable {kind : Kind} {separator : Char} {text : List Char}

/-- The lines of data with their numbers, counted from one. -/
theorem mem_dataLines {k : Nat} {line : List Char} :
    (k, line) ∈ dataLines text ↔ ∃ i, k = i + 1 ∧ HoldsRow text i line := by
  rw [dataLines, List.mem_filter, mem_numberFrom]
  constructor
  · rintro ⟨⟨i, rfl, hi⟩, hdata⟩
    rw [List.getElem?_map, Option.map_eq_some_iff] at hi
    obtain ⟨raw, hraw, hline⟩ := hi
    exact ⟨i, Nat.add_comm 1 i, ⟨raw, hraw, hline.symm⟩, hdata⟩
  · rintro ⟨i, rfl, ⟨raw, hraw, rfl⟩, hdata⟩
    refine ⟨⟨i, Nat.add_comm i 1, ?_⟩, hdata⟩
    rw [List.getElem?_map, hraw]
    rfl

/-- A quote is left open on a line of data that cannot be split. -/
theorem unclosed_iff {i : Nat} :
    Unclosed separator text i ↔
      ∃ d ∈ dataLines text, d.1 = i + 1 ∧ splitFields? separator d.2 = none := by
  constructor
  · rintro ⟨line, hline, hopen⟩
    exact ⟨(i + 1, line), mem_dataLines.mpr ⟨i, rfl, hline⟩, rfl, hopen⟩
  · rintro ⟨⟨k, line⟩, hmem, hk, hopen⟩
    obtain ⟨j, rfl, hline⟩ := mem_dataLines.mp hmem
    obtain rfl : j = i := Nat.succ.inj hk
    exact ⟨line, hline, hopen⟩

/-- The rows that the first pass has split: none is open, and they are those on the lines. -/
structure Numbered (separator : Char) (text : List Char) (rows : List (Nat × List (List Char))) :
    Prop where
  closed : ∀ i, ¬ Unclosed separator text i
  inOrder : InOrder rows
  mem_iff : ∀ k fields, (k, fields) ∈ rows ↔ ∃ i, k = i + 1 ∧ FieldsAt separator text i fields
  ends : (rows.map fun r => (firstField r.2, lastField r.2)) = rowsOf separator text

/-- Rows that have been split are those of the text, with their numbers. -/
theorem numbered_of_splitRows {rows : List (Nat × List (List Char))}
    (h : splitRows kind separator (dataLines text) = .ok rows) : Numbered separator text rows := by
  -- no quote is open, so each line of data has become a row with the number of the line
  obtain ⟨hclosed, rfl⟩ := splitRows_eq_ok_iff.mp h
  constructor
  · intro i hi
    obtain ⟨d, hd, -, hopen⟩ := unclosed_iff.mp hi
    exact hclosed d hd hopen
  · exact List.pairwise_map.mpr (inOrder_dataLines text)
  · intro k fields
    rw [List.mem_map]
    constructor
    · rintro ⟨⟨n, line⟩, hmem, heq⟩
      obtain ⟨rfl, rfl⟩ := Prod.mk.inj heq
      obtain ⟨i, rfl, hline⟩ := mem_dataLines.mp hmem
      obtain ⟨fields, hfields⟩ := Option.ne_none_iff_exists'.mp (hclosed _ hmem)
      refine ⟨i, rfl, line, hline, ?_⟩
      rw [hfields]
      rfl
    · rintro ⟨i, rfl, line, hline, hfields⟩
      refine ⟨(i + 1, line), mem_dataLines.mpr ⟨i, rfl, hline⟩, ?_⟩
      rw [hfields]
      rfl
  · rw [rowsOf, ← map_snd_dataLines, List.map_map, List.map_map]
    rfl

namespace Numbered

variable {rows : List (Nat × List (List Char))}

/-- The ids taken before a row are those of the rows above its line. -/
theorem takenBefore_eq (h : Numbered separator text rows) (i : Nat) :
    takenBefore [] rows (i + 1) = TakenAbove separator text i := by
  funext id
  apply propext
  constructor
  · rintro (hseen | ⟨⟨k, fields⟩, hmem, hlt, hid⟩)
    · cases hseen
    · obtain ⟨j, rfl, hfields⟩ := (h.mem_iff k fields).mp hmem
      exact ⟨j, Nat.lt_of_succ_lt_succ hlt, fields, hfields, hid⟩
  · rintro ⟨j, hlt, fields, hfields, hid⟩
    have hmem := (h.mem_iff (j + 1) fields).mpr ⟨j, rfl, hfields⟩
    exact .inr ⟨(j + 1, fields), hmem, Nat.succ_lt_succ hlt, hid⟩

/-- All rows fit if the fields on each line do. -/
theorem fits_iff (h : Numbered separator text rows) :
    (∀ r ∈ rows, Fits kind (takenBefore [] rows r.1) r.2) ↔
      ∀ i fields, FieldsAt separator text i fields →
        Fits kind (TakenAbove separator text i) fields := by
  constructor
  · intro hall i fields hfields
    have hfits := hall (i + 1, fields) ((h.mem_iff _ _).mpr ⟨i, rfl, hfields⟩)
    rwa [h.takenBefore_eq] at hfits
  · rintro hall ⟨k, fields⟩ hmem
    obtain ⟨i, rfl, hfields⟩ := (h.mem_iff k fields).mp hmem
    rw [h.takenBefore_eq]
    exact hall i fields hfields

/-- The first row that does not fit is the one on the first line whose row does not. -/
theorem misfit_iff (h : Numbered separator text rows) {e : TableError} :
    (∃ r ∈ rows, (∀ r' ∈ rows, r'.1 < r.1 → Fits kind (takenBefore [] rows r'.1) r'.2) ∧
        Misfit kind (takenBefore [] rows r.1) r.1 r.2 e) ↔
      ∃ i fields, (∀ j < i, ∀ above, FieldsAt separator text j above →
          Fits kind (TakenAbove separator text j) above) ∧
        FieldsAt separator text i fields ∧
        Misfit kind (TakenAbove separator text i) (i + 1) fields e := by
  constructor
  · rintro ⟨⟨k, fields⟩, hmem, hbefore, he⟩
    obtain ⟨i, rfl, hfields⟩ := (h.mem_iff k fields).mp hmem
    rw [h.takenBefore_eq] at he
    refine ⟨i, fields, fun j hj above habove => ?_, hfields, he⟩
    have hfits := hbefore (j + 1, above) ((h.mem_iff _ _).mpr ⟨j, rfl, habove⟩)
      (Nat.succ_lt_succ hj)
    rwa [h.takenBefore_eq] at hfits
  · rintro ⟨i, fields, habove, hfields, he⟩
    rw [← h.takenBefore_eq] at he
    refine ⟨(i + 1, fields), (h.mem_iff _ _).mpr ⟨i, rfl, hfields⟩, ?_, he⟩
    rintro ⟨k, above⟩ hmem hlt
    obtain ⟨j, rfl, hj⟩ := (h.mem_iff k above).mp hmem
    rw [h.takenBefore_eq]
    exact habove j (Nat.lt_of_succ_lt_succ hlt) above hj

end Numbered

/-! ## Both passes -/

/-- If no quote is left open, all rows can be split. -/
theorem splitRows_of_closed (kind : Kind) (h : ∀ i, ¬ Unclosed separator text i) :
    ∃ rows, splitRows kind separator (dataLines text) = .ok rows := by
  refine ⟨_, splitRows_eq_ok_iff.mpr ⟨?_, rfl⟩⟩
  rintro ⟨k, line⟩ hmem hopen
  obtain ⟨i, rfl, hline⟩ := mem_dataLines.mp hmem
  exact h i ⟨line, hline, hopen⟩

/-- Rows are kept if and only if the text is a table. -/
theorem parseRows_eq_ok_iff {kept : List (String × String)} :
    parseRows kind separator text = .ok kept ↔
      Accepts kind separator text ∧ kept = rowsOf separator text := by
  rw [parseRows, bind_eq_ok_iff]
  constructor
  · rintro ⟨rows, hsplit, hcheck⟩
    have hrows := numbered_of_splitRows hsplit
    obtain ⟨hfits, rfl⟩ := (checkRows_eq_ok_iff hrows.inOrder).mp hcheck
    exact ⟨⟨hrows.closed, hrows.fits_iff.mp hfits⟩, hrows.ends⟩
  · rintro ⟨haccepts, rfl⟩
    obtain ⟨rows, hsplit⟩ := splitRows_of_closed kind haccepts.closed
    have hrows := numbered_of_splitRows hsplit
    refine ⟨rows, hsplit, (checkRows_eq_ok_iff hrows.inOrder).mpr ⟨?_, hrows.ends.symm⟩⟩
    exact hrows.fits_iff.mpr haccepts.fits

/-- The first line with an open quote is blamed. -/
theorem splitRows_dataLines_eq_error_iff {e : TableError} :
    splitRows kind separator (dataLines text) = .error e ↔
      ∃ i, Unclosed separator text i ∧ (∀ j < i, ¬ Unclosed separator text j) ∧
        e = .invalidRow kind (i + 1) .unterminatedQuote := by
  rw [splitRows_eq_error_iff (inOrder_dataLines text)]
  constructor
  · rintro ⟨⟨k, line⟩, hmem, hopen, hbefore, rfl⟩
    obtain ⟨i, rfl, hline⟩ := mem_dataLines.mp hmem
    refine ⟨i, ⟨line, hline, hopen⟩, fun j hj hun => ?_, rfl⟩
    obtain ⟨d, hd, hk, hdopen⟩ := unclosed_iff.mp hun
    exact hbefore d hd (hk ▸ Nat.succ_lt_succ hj) hdopen
  · rintro ⟨i, hun, hbefore, rfl⟩
    obtain ⟨d, hd, hk, hopen⟩ := unclosed_iff.mp hun
    refine ⟨d, hd, hopen, ?_, by rw [hk]⟩
    rintro ⟨k, line⟩ hmem hlt hline
    obtain ⟨j, rfl, hj⟩ := mem_dataLines.mp hmem
    rw [hk] at hlt
    exact hbefore j (Nat.lt_of_succ_lt_succ hlt) ⟨line, hj, hline⟩

/-- A text that is no table is refused for its first fault. -/
theorem parseRows_eq_error_iff {e : TableError} :
    parseRows kind separator text = .error e ↔ FirstFault kind separator text e := by
  rw [parseRows, bind_eq_error_iff]
  constructor
  · rintro (hsplit | ⟨rows, hsplit, hcheck⟩)
    · obtain ⟨i, hun, hbefore, rfl⟩ := splitRows_dataLines_eq_error_iff.mp hsplit
      exact .unclosed hun hbefore
    · have hrows := numbered_of_splitRows hsplit
      have hmisfit := (checkRows_eq_error_iff hrows.inOrder).mp hcheck
      obtain ⟨i, fields, habove, hfields, he⟩ := hrows.misfit_iff.mp hmisfit
      exact .misfit hrows.closed habove hfields he
  · intro hfault
    cases hfault with
    | unclosed hun hbefore =>
      exact .inl (splitRows_dataLines_eq_error_iff.mpr ⟨_, hun, hbefore, rfl⟩)
    | misfit hclosed habove hfields he =>
      obtain ⟨rows, hsplit⟩ := splitRows_of_closed kind hclosed
      have hrows := numbered_of_splitRows hsplit
      refine .inr ⟨rows, hsplit, (checkRows_eq_error_iff hrows.inOrder).mpr ?_⟩
      exact hrows.misfit_iff.mpr ⟨_, _, habove, hfields, he⟩

end Positions

/-! ## The three tables -/

/-- A table of names is made of what is kept of its rows. -/
theorem parseNamed_eq_map (kind : Kind) (format : Format) (text : List Char) :
    parseNamed kind format text =
      (parseRows kind format.separator text).map (List.map fun p => ⟨p.1, p.2⟩) := by
  rw [parseNamed]
  cases parseRows kind format.separator text <;> rfl

/-- A table of coverage is made of what is kept of its rows. -/
theorem parseCoverage_eq_map (format : Format) (text : List Char) :
    parseCoverage format text =
      (parseRows .coverage format.separator text).map fun rows =>
        ⟨rows.map fun p => ⟨p.1, p.2⟩, format.delimiter⟩ := by
  rw [parseCoverage]
  cases parseRows .coverage format.separator text <;> rfl

example : parseNamed .method {} "# id,name\nM1,\"a, b\"\n\n M2 , c\n".toList =
    .ok [⟨"M1", "a, b"⟩, ⟨"M2", "c"⟩] := by
  rfl

example : parseNamed .method {} "# id,name\nM1,\"a, b\"\n\n M2 ,\"c\n".toList =
    .error (.invalidRow .method 4 .unterminatedQuote) := by
  rfl

end TestImpact.Table
