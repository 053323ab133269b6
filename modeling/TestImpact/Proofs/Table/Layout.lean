import TestImpact.Proofs.Table.Grammar

/-!
# Texts that hold given rows

A table that has been written has no comments and no blank lines: it has a line for each row, which
is split into the fields of the row (`IsTableOf`). What the parsers make of such a text can be told
from its rows alone: they are kept if each of them has its columns and an id of its own
(`IsTableOf.parseRows_eq`), and the first one with a wrong number of columns is blamed
(`IsTableOf.parseRows_columns`).
-/

namespace TestImpact.Table

/-- The lines of a text without the blanks around them. -/
def trimmedLines (text : List Char) : List (List Char) :=
  (Text.lines (dropMark text)).map Text.trim

/-- Whether a text has one line for each of some rows, and no other lines. -/
structure IsTableOf (separator : Char) (text : List Char) (rows : List (List (List Char))) :
    Prop where
  data : ∀ line ∈ trimmedLines text, isData line = true
  split : (trimmedLines text).map (splitFields? separator) = rows.map some

namespace IsTableOf

variable {kind : Kind} {separator : Char} {text : List Char} {rows : List (List (List Char))}
  {i : Nat} {fields : List (List Char)}

/-- A line of data by its place in the text. -/
theorem holdsRow_iff (h : IsTableOf separator text rows) {line : List Char} :
    HoldsRow text i line ↔ (trimmedLines text)[i]? = some line := by
  simp only [HoldsRow, trimmedLines, List.getElem?_map, Option.map_eq_some_iff]
  constructor
  · rintro ⟨⟨raw, hraw, rfl⟩, -⟩
    exact ⟨raw, hraw, rfl⟩
  · rintro ⟨raw, hraw, rfl⟩
    refine ⟨⟨raw, hraw, rfl⟩, h.data _ ?_⟩
    exact List.mem_map_of_mem (List.mem_of_getElem? hraw)

/-- The line at a position is split into the row at this position. -/
theorem split_getElem? (h : IsTableOf separator text rows) (i : Nat) :
    (trimmedLines text)[i]?.map (splitFields? separator) = rows[i]?.map some := by
  rw [← List.getElem?_map, h.split, List.getElem?_map]

/-- The fields on a line are those of its row. -/
theorem fieldsAt_iff (h : IsTableOf separator text rows) :
    FieldsAt separator text i fields ↔ rows[i]? = some fields := by
  have hsplit := h.split_getElem? i
  simp only [FieldsAt, h.holdsRow_iff]
  constructor
  · rintro ⟨line, hline, hfields⟩
    rw [hline, Option.map_some, hfields] at hsplit
    obtain ⟨found, hfound, heq⟩ := Option.map_eq_some_iff.mp hsplit.symm
    rwa [Option.some.inj heq] at hfound
  · intro hrow
    rw [hrow, Option.map_some] at hsplit
    exact Option.map_eq_some_iff.mp hsplit

/-- No quote of such a table is left open. -/
theorem not_unclosed (h : IsTableOf separator text rows) (i : Nat) :
    ¬ Unclosed separator text i := by
  rintro ⟨line, hline, hopen⟩
  have hsplit := h.split_getElem? i
  rw [h.holdsRow_iff.mp hline, Option.map_some, hopen] at hsplit
  obtain ⟨fields, -, heq⟩ := Option.map_eq_some_iff.mp hsplit.symm
  cases heq

/-- A row fits into the table if it has its columns and an id that no row before it has. -/
theorem fits (h : IsTableOf separator text rows) {front : List (List (List Char))}
    (hfront : front <+: rows) (hdistinct : (front.map firstField).Nodup)
    (hrow : front[i]? = some fields) (hcolumns : kind.allows fields.length = true)
    (hnamed : firstField fields ≠ "") : Fits kind (TakenAbove separator text i) fields := by
  refine ⟨hcolumns, hnamed, ?_⟩
  rintro ⟨j, hlt, above, habove, hid⟩
  have hi : i < front.length := (List.getElem?_eq_some_iff.mp hrow).1
  have hj : front[j]? = some above := by
    rw [← h.fieldsAt_iff.mp habove]
    obtain ⟨rest, rfl⟩ := hfront
    exact (List.getElem?_append_left (Nat.lt_trans hlt hi)).symm
  -- no id stands at two positions of a list without duplicates
  have hsame : i = j := by
    apply (List.getElem?_inj (by rwa [List.length_map]) hdistinct).mp
    rw [List.getElem?_map, List.getElem?_map, hrow, hj, Option.map_some, Option.map_some, hid]
  omega

/-- What is kept of the rows of such a table. -/
theorem rowsOf_eq (h : IsTableOf separator text rows) :
    rowsOf separator text = rows.map fun fields => (firstField fields, lastField fields) := by
  have hdata : (trimmedLines text).filter isData = trimmedLines text :=
    List.filter_eq_self.mpr h.data
  have hfields : (trimmedLines text).map (fun line => (splitFields? separator line).getD []) =
      rows := by
    simpa [Function.comp_def] using congrArg (List.map (Option.getD · [])) h.split
  rw [rowsOf]
  show ((trimmedLines text).filter isData).map _ = _
  rw [hdata, ← hfields, List.map_map]
  rfl

/-- Rows with their columns and with ids of their own are kept. -/
theorem parseRows_eq (kind : Kind) (h : IsTableOf separator text rows)
    (hcolumns : ∀ fields ∈ rows, kind.allows fields.length = true)
    (hnamed : ∀ fields ∈ rows, firstField fields ≠ "")
    (hdistinct : (rows.map firstField).Nodup) :
    parseRows kind separator text =
      .ok (rows.map fun fields => (firstField fields, lastField fields)) := by
  rw [parseRows_eq_ok_iff]
  refine ⟨⟨h.not_unclosed, fun i fields hfields => ?_⟩, h.rowsOf_eq.symm⟩
  have hrow := h.fieldsAt_iff.mp hfields
  have hmem := List.mem_of_getElem? hrow
  exact h.fits List.prefix_rfl hdistinct hrow (hcolumns fields hmem) (hnamed fields hmem)

/-- The first row with a wrong number of columns is blamed if the rows before it can be kept. -/
theorem parseRows_columns (kind : Kind) {front rest : List (List (List Char))}
    (h : IsTableOf separator text (front ++ fields :: rest))
    (hcolumns : ∀ fields ∈ front, kind.allows fields.length = true)
    (hnamed : ∀ fields ∈ front, firstField fields ≠ "")
    (hdistinct : (front.map firstField).Nodup) (hwrong : kind.allows fields.length = false) :
    parseRows kind separator text =
      .error (.invalidRow kind (front.length + 1) (.columns fields.length)) := by
  rw [parseRows_eq_error_iff]
  have hrow : FieldsAt separator text front.length fields := by
    rw [h.fieldsAt_iff, List.getElem?_append_right (Nat.le_refl _), Nat.sub_self]
    rfl
  refine .misfit h.not_unclosed ?_ hrow (.columns hwrong)
  intro j hj above habove
  have hrow := h.fieldsAt_iff.mp habove
  rw [List.getElem?_append_left hj] at hrow
  have hmem := List.mem_of_getElem? hrow
  exact h.fits (List.prefix_append _ _) hdistinct hrow (hcolumns above hmem) (hnamed above hmem)

end IsTableOf

end TestImpact.Table
