import Mathlib.Data.Finset.Card
import TestImpact.Proofs.Analysis.FileCounts
import TestImpact.Proofs.Patch.Reported
import TestImpact.Proofs.Trace.Outcome

/-!
# What an analysis counts of the methods

The changed methods are counted as they are listed, file by file, and the methods that are traced or
could not be traced as the resolution has them, each name once. So the counts agree as long as each
name comes from one file (`accountsForMethods_iff`), and they do not if two files, such as files of
the same name below two source roots, lead to the same qualified name
(`not_accountsForMethods`).
-/

namespace TestImpact

/-- What it means that a report accounts for its methods. -/
structure Report.AccountsForMethods (r : Report) : Prop where
  /-- The different names among the changed methods are counted. -/
  distinct : r.data.changedMethodsTotal = r.changedMethods.toFinset.card
  /-- Every method that is counted is in an entry or in a diagnostic. -/
  traced : r.data.changedMethodsTotal = r.data.resolvedMethods + r.data.unresolvedMethods

/-! ## Different names -/

theorem nodup_eraseDups (names : List String) : names.eraseDups.Nodup := by
  cases names with
  | nil => exact List.nodup_nil
  | cons name names =>
    rw [List.eraseDups_cons, List.nodup_cons]
    constructor
    · intro hmem
      rw [List.mem_eraseDups, List.mem_filter] at hmem
      simp at hmem
    · exact nodup_eraseDups _
termination_by names.length
decreasing_by exact Nat.lt_succ_of_le (List.length_filter_le _ _)

theorem card_toFinset_eq_length_eraseDups (names : List String) :
    names.toFinset.card = names.eraseDups.length := by
  rw [← List.toFinset_card_of_nodup (nodup_eraseDups names)]
  apply congrArg
  ext name
  rw [List.mem_toFinset, List.mem_toFinset, List.mem_eraseDups]

theorem card_toFinset_eq_length_iff {names : List String} :
    names.toFinset.card = names.length ↔ names.Nodup :=
  Multiset.toFinset_card_eq_card_iff_nodup (m := (names : Multiset String))

/-- The resolution drops no name and takes none twice. -/
theorem length_resolve (tables : ReferenceTables) (changed : List String) :
    (tables.resolve changed).entries.length + (tables.resolve changed).diagnostics.length =
      changed.toFinset.card := by
  rw [resolve_entries, resolve_diagnostics, length_entries_add_length_diagnostics,
    List.length_map, card_toFinset_eq_length_eraseDups]

/-! ## Names and files -/

/-- Within one file the names differ, so a name is listed twice if and only if two files lead to
it. -/
theorem nodup_methods_iff (d : Patch.Detector) (filter : Glob.Filter) (files : List FileChange) :
    (FileScan.ofFiles d filter files).methods.Nodup ↔
      (files.filter (FileScan.selects d filter)).Pairwise fun file other =>
        (d.detectFile file).Disjoint (d.detectFile other) := by
  rw [FileScan.methods_ofFiles, List.nodup_flatMap]
  constructor
  · intro h
    exact h.2
  · intro h
    exact ⟨fun file _ => Patch.Detector.nodup_detectFile file, h⟩

/-! ## The report -/

/-- The counts of the report agree if and only if the number of listed names, as far as it fits into
32 bits, is the number of different ones. -/
theorem accountsForMethods_reportOn_iff (request : AnalysisRequest) (d : Patch.Detector)
    (name : String) (files : List FileChange) (tables : ReferenceTables)
    (started ended : Moment) :
    let names := (FileScan.ofFiles d request.filter files).methods
    (request.reportOn d name files (some tables) started ended).AccountsForMethods ↔
      names.length % 2 ^ 32 = names.toFinset.card := by
  intro names
  constructor
  · intro h
    exact h.distinct
  · intro h
    refine ⟨h, ?_⟩
    have hresolved := length_resolve tables names
    -- both parts of a sum that fits into 32 bits fit as well
    have hlt : names.toFinset.card < 2 ^ 32 := h ▸ Nat.mod_lt _ (by decide)
    have hentries : (tables.resolve names).entries.length < 2 ^ 32 := by omega
    have hdiagnostics : (tables.resolve names).diagnostics.length < 2 ^ 32 := by omega
    show names.length % 2 ^ 32 = Report.count (tables.resolve names).entries.length +
      Report.count (tables.resolve names).diagnostics.length
    rw [Report.count_of_lt hentries, Report.count_of_lt hdiagnostics, hresolved]
    exact h

/-- **The report accounts for its methods if and only if each name comes from one file.** Whenever
an analysis with tables succeeds, every different name is in an entry or in a diagnostic. As long
as the listed names are fewer than 2³², the counts of the report agree if and only if no two of the
files that are scanned lead to the same qualified name; and if there are more, they agree only if
what 32 bits keep of their number happens to be the number of the different ones. -/
theorem accountsForMethods_iff {request : AnalysisRequest} {source : ChangeSource}
    {tables : Except String ReferenceTables} {started ended : Moment} {a : Analysis}
    (h : analyze request source (some tables) started ended = .ok a) :
    ∃ d files, request.detectorOf = .ok d ∧ source.files = .ok files ∧
      (a.report.traceability.getD []).length + a.report.diagnostics.length =
        a.report.changedMethods.toFinset.card ∧
      (a.report.AccountsForMethods ↔
        a.report.changedMethods.length % 2 ^ 32 = a.report.changedMethods.toFinset.card) ∧
      (a.report.changedMethods.length < 2 ^ 32 →
        (a.report.AccountsForMethods ↔
          (files.filter (FileScan.selects d request.filter)).Pairwise fun file other =>
            (d.detectFile file).Disjoint (d.detectFile other))) := by
  obtain ⟨d, files, loaded, hd, hfiles, htables, rfl⟩ := analyze_eq_ok_iff.mp h
  cases loaded with
  | none => cases htables
  | some loaded =>
    rw [AnalysisRequest.report_analysisOn, AnalysisRequest.changedMethods_reportOn]
    have hcard := accountsForMethods_reportOn_iff request d source.name files loaded started ended
    refine ⟨d, files, hd, hfiles, length_resolve _ _, hcard, ?_⟩
    intro hfew
    apply hcard.trans
    rw [Nat.mod_eq_of_lt hfew, eq_comm, card_toFinset_eq_length_iff]
    exact nodup_methods_iff d request.filter files

/-- A patch that adds a line to a method. -/
def addedCall : String := "@@ -1,2 +1,3 @@\n void run() \x7b\n+  go();\n \x7d"

/-- Two files with different names. -/
def differentFiles : List FileChange :=
  [⟨"src/A.java", some addedCall, none⟩, ⟨"src/B.java", some addedCall, none⟩]

/-- Two files that touch methods of different names: the total is right. -/
theorem accountsForMethods_iff_differentFiles :
    ∃ a, analyze {} ⟨"github", .ok differentFiles⟩ (some (.ok {})) ⟨0⟩ ⟨0⟩ = .ok a ∧
      a.report.changedMethods = ["A.run()", "B.run()"] ∧ a.report.AccountsForMethods := by
  have hfound : (FileScan.ofFiles {} {} differentFiles).methods = ["A.run()", "B.run()"] := by
    rw [FileScan.methods_ofFiles]
    decide +kernel
  have hdetector : AnalysisRequest.detectorOf {} = .ok {} := rfl
  obtain ⟨a, hok, hmethods⟩ :=
    exists_analyze hdetector "github" differentFiles (some {}) ⟨0⟩ ⟨0⟩
  have hnames := hmethods.trans hfound
  obtain ⟨d, files, -, -, -, hiff, -⟩ := accountsForMethods_iff hok
  refine ⟨a, hok, hnames, hiff.mpr ?_⟩
  rw [hnames]
  decide

/-- Two files of the same name below two source roots. -/
def sameFiles : List FileChange :=
  [⟨"src/main/java/A.java", some addedCall, none⟩, ⟨"src/A.java", some addedCall, none⟩]

/-- Two methods are counted where one is listed, traced and unmapped. -/
theorem not_accountsForMethods :
    sameFiles.length < 2 ^ 32 ∧
    ∃ a, analyze {} ⟨"github", .ok sameFiles⟩ (some (.ok {})) ⟨0⟩ ⟨0⟩ = .ok a ∧
      ¬ a.report.AccountsForMethods := by
  have hfound : (FileScan.ofFiles {} {} sameFiles).methods = ["A.run()", "A.run()"] := by
    rw [FileScan.methods_ofFiles]
    decide +kernel
  have hdetector : AnalysisRequest.detectorOf {} = .ok {} := rfl
  have hok := analyze_eq_ok hdetector "github" sameFiles (some {}) ⟨0⟩ ⟨0⟩
  refine ⟨by decide, _, hok, ?_⟩
  intro h
  rw [AnalysisRequest.report_analysisOn] at h
  have hcard := (accountsForMethods_reportOn_iff {} {} "github" sameFiles {} ⟨0⟩ ⟨0⟩).mp h
  exact absurd (hfound ▸ hcard) (by decide)

end TestImpact
