import Mathlib.Data.List.Forall2
import TestImpact.Proofs.Text.Pieces
import TestImpact.Proofs.Trace.LookupKey

/-!
# What becomes of changed methods

The relation `ReferenceTables.Outcome` says what becomes of a changed method without saying how to
look it up: its key has a row or has none, its id has a row of coverage or has none, and the pieces
of the cell in that row name its tests. A method has exactly one outcome, the one that is computed
(`outcome_iff`), and the resolution of some changed methods holds the outcome of each of them, once
and in the order given (`resolve_holds_outcomes`).
-/

namespace TestImpact

/-- The ids among the pieces of a cell: trimmed, without the empty ones. -/
def idsOfPieces (pieces : List (List Char)) : List String :=
  ((pieces.map Text.trim).filter (· ≠ [])).map String.ofList

/-- What can become of a changed method. -/
inductive ReferenceTables.Outcome (tables : ReferenceTables) (method : String) :
    Except Diagnostic TraceEntry → Prop
  /-- No key of the method has a row. -/
  | unmapped : HasNoId tables.methods method →
      Outcome tables method (.error (.unmappedMethod method))
  /-- The id of the method has no row of coverage. -/
  | uncovered {id} : HasId tables.methods method id →
      (∀ row ∈ tables.coverage.rows, row.methodId ≠ id) →
      Outcome tables method (.error (.missingCoverageRow method id))
  /-- The cell of the first row of the id names the tests, which come in the order of their own
  table. -/
  | traced {id row pieces} : HasId tables.methods method id →
      FirstIn (fun r => r.methodId = id) tables.coverage.rows row →
      Text.Pieces tables.coverage.delimiter.toList row.testIds.toList pieces →
      Outcome tables method
        (.ok ⟨method, (tables.tests.filter (·.id ∈ idsOfPieces pieces)).map (·.name)⟩)

theorem Coverage.row?_eq_some_iff {table : Coverage} {id : String} {row : CoverageRow} :
    table.row? id = some row ↔ FirstIn (fun r => r.methodId = id) table.rows row := by
  simp [Coverage.row?, find?_eq_some_iff_firstIn]

theorem Coverage.row?_eq_none_iff {table : Coverage} {id : String} :
    table.row? id = none ↔ ∀ row ∈ table.rows, row.methodId ≠ id := by
  simp [Coverage.row?]

theorem CoverageRow.ids_eq {row : CoverageRow} {delimiter : String} {pieces : List (List Char)}
    (h : Text.Pieces delimiter.toList row.testIds.toList pieces) :
    row.ids delimiter = idsOfPieces pieces := by
  have hkept : (fun piece : List Char => !piece.isEmpty) = fun piece => decide (piece ≠ []) := by
    funext piece
    cases piece <;> rfl
  simp only [CoverageRow.ids, splitTestIds, idsOfPieces, h.eq_splitOn, hkept]

/-- Every method has the outcome that is computed, and no other. -/
theorem outcome_iff {tables : ReferenceTables} {method : String}
    {outcome : Except Diagnostic TraceEntry} :
    tables.Outcome method outcome ↔ tables.trace method = outcome := by
  constructor
  · -- the outcomes go by the lookup that fails first, as tracing does
    intro h
    cases h with
    | unmapped hno => simp [ReferenceTables.trace, methodId?_eq_none_iff.mpr hno]
    | uncovered hid hno =>
      simp [ReferenceTables.trace, methodId?_eq_some_iff.mpr hid, Coverage.row?_eq_none_iff.mpr hno]
    | traced hid hrow hpieces =>
      simp [ReferenceTables.trace, methodId?_eq_some_iff.mpr hid,
        Coverage.row?_eq_some_iff.mpr hrow, CoverageRow.ids_eq hpieces]
  · rintro rfl
    cases hid : methodId? tables.methods method with
    | none =>
      simp only [ReferenceTables.trace, hid]
      exact .unmapped (methodId?_eq_none_iff.mp hid)
    | some id =>
      cases hrow : tables.coverage.row? id with
      | none =>
        simp only [ReferenceTables.trace, hid, hrow]
        exact .uncovered (methodId?_eq_some_iff.mp hid) (Coverage.row?_eq_none_iff.mp hrow)
      | some row =>
        have hpieces := Text.pieces_splitOn tables.coverage.delimiter.toList row.testIds.toList
        have htrace := ReferenceTables.Outcome.traced (methodId?_eq_some_iff.mp hid)
          (Coverage.row?_eq_some_iff.mp hrow) hpieces
        simpa [ReferenceTables.trace, hid, hrow, CoverageRow.ids_eq hpieces] using htrace

/-! ## All changed methods -/

/-- The diagnostic of an outcome that is none of a traced method. -/
def diagnostic? : Except Diagnostic TraceEntry → Option Diagnostic
  | .error d => some d
  | .ok _ => none

theorem distinct_eq_eraseDups (xs : List String) : distinct xs = xs.eraseDups := by
  have hloop : ∀ kept : List String,
      (xs.foldl (fun kept x => if kept.contains x then kept else x :: kept) kept).reverse =
        List.eraseDupsBy.loop (· == ·) xs kept := by
    induction xs with
    | nil => intro kept; rfl
    | cons x xs ih =>
      intro kept
      rw [List.foldl_cons, ih, List.eraseDupsBy.loop, List.contains_eq_any_beq]
      cases kept.any (x == ·) <;> rfl
  exact hloop []

/-- The entries are those of the methods that could be traced, each method once and in order. -/
theorem resolve_entries (tables : ReferenceTables) (changed : List String) :
    (tables.resolve changed).entries =
      (changed.eraseDups.map tables.trace).filterMap Except.toOption := by
  rw [ReferenceTables.resolve, distinct_eq_eraseDups]

/-- The diagnostics are those of the methods that could not, each method once and in order. -/
theorem resolve_diagnostics (tables : ReferenceTables) (changed : List String) :
    (tables.resolve changed).diagnostics =
      (changed.eraseDups.map tables.trace).filterMap diagnostic? := by
  rw [ReferenceTables.resolve, distinct_eq_eraseDups]
  rfl

/-- An outcome is an entry or a diagnostic, and never both. -/
theorem length_entries_add_length_diagnostics (outcomes : List (Except Diagnostic TraceEntry)) :
    (outcomes.filterMap Except.toOption).length + (outcomes.filterMap diagnostic?).length =
      outcomes.length := by
  induction outcomes with
  | nil => rfl
  | cons outcome outcomes ih =>
    cases outcome <;>
      simp only [List.filterMap_cons, Except.toOption, diagnostic?, List.length_cons] <;> omega

/-- An entry of a method is about this method. -/
theorem method_of_trace {tables : ReferenceTables} {method : String} {entry : TraceEntry}
    (h : tables.trace method = .ok entry) : entry.method = method := by
  cases outcome_iff.mpr h
  rfl

/-- The tests found for a method are those of its own outcome. -/
theorem testsFor?_resolve {tables : ReferenceTables} {changed : List String} {method : String}
    {tests : List String} :
    (tables.resolve changed).testsFor? method = some tests ↔
      method ∈ changed ∧ tables.trace method = .ok ⟨method, tests⟩ := by
  -- an entry is known by its method alone, so the first entry of a method is the one it has
  have hentry : ∀ entry, entry ∈ (tables.resolve changed).entries ↔
      entry.method ∈ changed ∧ tables.trace entry.method = .ok entry := by
    intro entry
    simp only [resolve_entries, List.mem_filterMap, List.mem_map, List.mem_eraseDups]
    constructor
    · rintro ⟨outcome, ⟨n, hn, rfl⟩, hout⟩
      cases htrace : tables.trace n with
      | error d => simp [htrace, Except.toOption] at hout
      | ok e =>
        obtain rfl : e = entry := by simpa [htrace, Except.toOption] using hout
        obtain rfl := method_of_trace htrace
        exact ⟨hn, htrace⟩
    · rintro ⟨hn, htrace⟩
      exact ⟨_, ⟨entry.method, hn, rfl⟩, by rw [htrace]; rfl⟩
  rw [Resolution.testsFor?, Option.map_eq_some_iff]
  constructor
  · rintro ⟨entry, hfind, rfl⟩
    obtain rfl : entry.method = method := by simpa using List.find?_some hfind
    exact (hentry entry).mp (List.mem_of_find?_eq_some hfind)
  · rintro ⟨hn, htrace⟩
    have hmem := (hentry ⟨method, tests⟩).mpr ⟨hn, htrace⟩
    cases hfind : (tables.resolve changed).entries.find? (·.method = method) with
    | none => simpa using List.find?_eq_none.mp hfind _ hmem
    | some entry =>
      obtain rfl : entry.method = method := by simpa using List.find?_some hfind
      have hfound := ((hentry entry).mp (List.mem_of_find?_eq_some hfind)).2
      rw [htrace] at hfound
      exact ⟨entry, rfl, (congrArg (·.tests) (Except.ok.inj hfound)).symm⟩

/-- **Resolving changed methods meets its specification and drops nothing.** Every method has one
outcome; the entries and the diagnostics are the outcomes of the changed methods, each of them once
and in order; and the tests found for a method are those of its outcome. -/
theorem resolve_holds_outcomes (tables : ReferenceTables) (changed : List String) :
    (∀ method, ∃! outcome, tables.Outcome method outcome) ∧
    (∃ outcomes, List.Forall₂ tables.Outcome changed.eraseDups outcomes ∧
      (tables.resolve changed).entries = outcomes.filterMap Except.toOption ∧
      (tables.resolve changed).diagnostics = outcomes.filterMap diagnostic?) ∧
    (tables.resolve changed).entries.length + (tables.resolve changed).diagnostics.length =
      changed.eraseDups.length ∧
    ∀ method tests, (tables.resolve changed).testsFor? method = some tests ↔
      method ∈ changed ∧ tables.Outcome method (.ok ⟨method, tests⟩) := by
  refine ⟨fun method => ⟨tables.trace method, outcome_iff.mpr rfl, ?_⟩, ?_, ?_, ?_⟩
  · intro outcome h
    exact (outcome_iff.mp h).symm
  · refine ⟨changed.eraseDups.map tables.trace, ?_, resolve_entries tables changed,
      resolve_diagnostics tables changed⟩
    rw [List.forall₂_map_right_iff, List.forall₂_same]
    exact fun method _ => outcome_iff.mpr rfl
  · rw [resolve_entries, resolve_diagnostics, length_entries_add_length_diagnostics,
      List.length_map]
  · intro method tests
    rw [outcome_iff]
    exact testsFor?_resolve

end TestImpact
