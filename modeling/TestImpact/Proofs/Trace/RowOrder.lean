import Mathlib.Data.List.Nodup
import TestImpact.Proofs.Trace.Outcome

/-!
# The order of rows

Methods and rows of coverage are looked up by the first row of a key. If no key occurs twice, that
row is the only one of its key (`find?_key_eq_some_iff`), and it is found wherever it stands. So the
method table and the coverage table may be reordered at will, the fallback from one lookup key to
the next included. The test table is not searched but gone through, so its order shows in the tests
of each entry and nowhere else (`resolve_reordered`).
-/

namespace TestImpact

/-! ## Rows of a key -/

section Keys

variable {α κ : Type} [DecidableEq κ] {key : α → κ} {rows rows' : List α}

/-- Where no key occurs twice, every row is the first one of its key. -/
theorem find?_key_eq_some_iff (hdistinct : (rows.map key).Nodup) {k : κ} {row : α} :
    rows.find? (key · = k) = some row ↔ row ∈ rows ∧ key row = k := by
  constructor
  · intro h
    exact ⟨List.mem_of_find?_eq_some h, by simpa using List.find?_some h⟩
  · rintro ⟨hrow, hkey⟩
    have hfound : (rows.find? (key · = k)).isSome = true :=
      List.find?_isSome.mpr ⟨row, hrow, by simpa using hkey⟩
    obtain ⟨first, hfirst⟩ := Option.isSome_iff_exists.mp hfound
    have hmem : first ∈ rows := List.mem_of_find?_eq_some hfirst
    have hsame : key first = key row := by
      rw [hkey]
      simpa using List.find?_some hfirst
    rw [hfirst, List.inj_on_of_nodup_map hdistinct hmem hrow hsame]

/-- Reordering rows does not change which of them a key finds. -/
theorem find?_key_of_perm (h : rows.Perm rows') (hdistinct : (rows.map key).Nodup) (k : κ) :
    rows.find? (key · = k) = rows'.find? (key · = k) := by
  have hdistinct' : (rows'.map key).Nodup := (h.map key).nodup hdistinct
  apply Option.ext
  intro row
  rw [find?_key_eq_some_iff hdistinct, find?_key_eq_some_iff hdistinct', h.mem_iff]

end Keys

/-! ## Tables in another order -/

namespace ReferenceTables

/-- Tables with the same rows, in any order. -/
structure Reordered (tables tables' : ReferenceTables) : Prop where
  methods : tables.methods.Perm tables'.methods
  tests : tables.tests.Perm tables'.tests
  coverage : tables.coverage.rows.Perm tables'.coverage.rows
  delimiter : tables.coverage.delimiter = tables'.coverage.delimiter

/-- No name of a method occurs twice in its table, and no id in the coverage table. -/
structure Keyed (tables : ReferenceTables) : Prop where
  names : (tables.methods.map (·.name)).Nodup
  ids : (tables.coverage.rows.map (·.methodId)).Nodup

end ReferenceTables

/-- Two entries of one method with the names of the same rows of the test table, each in the order
in which the rows stand in its own version of the table. -/
structure TraceEntry.Reordered (tests tests' : List NamedRow) (entry entry' : TraceEntry) :
    Prop where
  method : entry.method = entry'.method
  rows : ∃ wanted : List String,
    entry.tests = (tests.filter (·.id ∈ wanted)).map (·.name) ∧
      entry'.tests = (tests'.filter (·.id ∈ wanted)).map (·.name)
  perm : entry.tests.Perm entry'.tests

/-- The same diagnostic, or entries that differ by the order of the test table. -/
inductive SameOutcome (tests tests' : List NamedRow) :
    Except Diagnostic TraceEntry → Except Diagnostic TraceEntry → Prop
  | missed (d : Diagnostic) : SameOutcome tests tests' (.error d) (.error d)
  | traced {entry entry' : TraceEntry} : entry.Reordered tests tests' entry' →
      SameOutcome tests tests' (.ok entry) (.ok entry')

/-- Entries that differ in the order of the tests only, by the same table, do not differ. -/
theorem TraceEntry.Reordered.eq {tests : List NamedRow} {entry entry' : TraceEntry}
    (h : entry.Reordered tests tests entry') : entry = entry' := by
  obtain ⟨wanted, htests, htests'⟩ := h.rows
  have hsame : entry.tests = entry'.tests := htests.trans htests'.symm
  have hmethod := h.method
  cases entry
  cases entry'
  congr

section Lookup

variable {tables tables' : ReferenceTables}

/-- The order of rows with different names makes no difference to the id of a method. -/
theorem methodId?_of_perm {rows rows' : List NamedRow} (h : rows.Perm rows')
    (hdistinct : (rows.map (·.name)).Nodup) (name : String) :
    methodId? rows name = methodId? rows' name := by
  have hid : NamedRow.idOf? rows = NamedRow.idOf? rows' := by
    funext k
    rw [NamedRow.idOf?, NamedRow.idOf?, find?_key_of_perm h hdistinct]
  rw [methodId?, methodId?, hid]

theorem ReferenceTables.Reordered.row?_eq (h : tables.Reordered tables') (hkeys : tables.Keyed)
    (id : String) : tables.coverage.row? id = tables'.coverage.row? id :=
  find?_key_of_perm h.coverage hkeys.ids id

/-- What becomes of a method is told by the rows and not by their order, but for the order of its
tests. -/
theorem ReferenceTables.Reordered.trace (h : tables.Reordered tables') (hkeys : tables.Keyed)
    (method : String) :
    SameOutcome tables.tests tables'.tests (tables.trace method) (tables'.trace method) := by
  rw [ReferenceTables.trace, ReferenceTables.trace, ← methodId?_of_perm h.methods hkeys.names]
  cases methodId? tables.methods method with
  | none => exact .missed _
  | some id =>
    simp only [← h.row?_eq hkeys]
    cases tables.coverage.row? id with
    | none => exact .missed _
    | some row =>
      rw [← h.delimiter]
      apply SameOutcome.traced
      refine ⟨rfl, ⟨row.ids tables.coverage.delimiter, ?_, ?_⟩, ?_⟩
      · simp only [List.contains_eq_mem]
      · simp only [List.contains_eq_mem]
      · exact (h.tests.filter _).map _

end Lookup

/-! ## All changed methods -/

section Outcomes

variable {tests tests' : List NamedRow} {outcomes outcomes' : List (Except Diagnostic TraceEntry)}

/-- Outcomes that are the same but for the order of tests have the same diagnostics. -/
theorem diagnostics_of_sameOutcome
    (h : List.Forall₂ (SameOutcome tests tests') outcomes outcomes') :
    outcomes.filterMap diagnostic? = outcomes'.filterMap diagnostic? := by
  induction h with
  | nil => rfl
  | cons hhead _ ih =>
    cases hhead with
    | missed d => exact congrArg (d :: ·) ih
    | traced _ => exact ih

/-- Outcomes that are the same but for the order of tests have entries that are. -/
theorem entries_of_sameOutcome (h : List.Forall₂ (SameOutcome tests tests') outcomes outcomes') :
    List.Forall₂ (TraceEntry.Reordered tests tests')
      (outcomes.filterMap Except.toOption) (outcomes'.filterMap Except.toOption) := by
  induction h with
  | nil => exact .nil
  | cons hhead _ ih =>
    cases hhead with
    | missed d => exact ih
    | traced hentry => exact .cons hentry ih

end Outcomes

/-- **The order of rows does not matter** where no key occurs twice. Reordering the method table and
the coverage table changes nothing; if the test table is reordered too, the diagnostics and the
methods of the entries stay, and every entry has its tests in the new order. -/
theorem resolve_reordered {tables tables' : ReferenceTables} (h : tables.Reordered tables')
    (hkeys : tables.Keyed) (changed : List String) :
    (tables.tests = tables'.tests → tables.resolve changed = tables'.resolve changed) ∧
    (tables.resolve changed).diagnostics = (tables'.resolve changed).diagnostics ∧
    List.Forall₂ (TraceEntry.Reordered tables.tests tables'.tests)
      (tables.resolve changed).entries (tables'.resolve changed).entries := by
  have houtcomes : List.Forall₂ (SameOutcome tables.tests tables'.tests)
      (changed.eraseDups.map tables.trace) (changed.eraseDups.map tables'.trace) := by
    rw [List.forall₂_map_left_iff, List.forall₂_map_right_iff, List.forall₂_same]
    exact fun method _ => h.trace hkeys method
  have hdiagnostics : (tables.resolve changed).diagnostics =
      (tables'.resolve changed).diagnostics := by
    rw [resolve_diagnostics, resolve_diagnostics]
    exact diagnostics_of_sameOutcome houtcomes
  have hentries : List.Forall₂ (TraceEntry.Reordered tables.tests tables'.tests)
      (tables.resolve changed).entries (tables'.resolve changed).entries := by
    rw [resolve_entries, resolve_entries]
    exact entries_of_sameOutcome houtcomes
  refine ⟨fun htests => ?_, hdiagnostics, hentries⟩
  rw [htests] at hentries
  have hsame : (tables.resolve changed).entries = (tables'.resolve changed).entries :=
    List.forall₂_eq_eq_eq ▸ hentries.imp fun _ _ hentry => hentry.eq
  calc tables.resolve changed
      = ⟨(tables.resolve changed).entries, (tables.resolve changed).diagnostics⟩ := rfl
    _ = ⟨(tables'.resolve changed).entries, (tables'.resolve changed).diagnostics⟩ := by
      rw [hsame, hdiagnostics]
    _ = tables'.resolve changed := rfl

/-- A method that is known by its qualified name and another one that is known by its identifier. -/
def twoRuns : ReferenceTables where
  methods := [⟨"M1", "acme.A.run()"⟩, ⟨"M2", "run"⟩]
  tests := [⟨"T1", "starts"⟩, ⟨"T2", "stops"⟩, ⟨"T3", "waits"⟩]
  coverage := { rows := [⟨"M1", "T3_T1"⟩, ⟨"M2", "T2"⟩] }

/-- The same tables from the last row to the first one. -/
def twoRunsBackwards : ReferenceTables where
  methods := twoRuns.methods.reverse
  tests := twoRuns.tests.reverse
  coverage := { rows := twoRuns.coverage.rows.reverse }

/-- One method is found by its name, one only by its identifier, which is a name too, and one is
not found. -/
theorem resolve_reordered_twoRuns :
    let changed := ["acme.A.run()", "acme.B.run()", "acme.A.halt()"]
    (twoRuns.Reordered twoRunsBackwards ∧ twoRuns.Keyed) ∧
    (twoRuns.resolve changed).entries =
      [⟨"acme.A.run()", ["starts", "waits"]⟩, ⟨"acme.B.run()", ["stops"]⟩] ∧
    (twoRunsBackwards.resolve changed).entries =
      [⟨"acme.A.run()", ["waits", "starts"]⟩, ⟨"acme.B.run()", ["stops"]⟩] ∧
    (twoRuns.resolve changed).diagnostics = (twoRunsBackwards.resolve changed).diagnostics ∧
    List.Forall₂ (TraceEntry.Reordered twoRuns.tests twoRunsBackwards.tests)
      (twoRuns.resolve changed).entries (twoRunsBackwards.resolve changed).entries := by
  intro changed
  have hreordered : twoRuns.Reordered twoRunsBackwards :=
    ⟨(List.reverse_perm _).symm, (List.reverse_perm _).symm, (List.reverse_perm _).symm, rfl⟩
  have hkeys : twoRuns.Keyed := ⟨by decide, by decide⟩
  obtain ⟨-, hdiagnostics, hentries⟩ := resolve_reordered hreordered hkeys changed
  exact ⟨⟨hreordered, hkeys⟩, by decide, by decide, hdiagnostics, hentries⟩

end TestImpact
