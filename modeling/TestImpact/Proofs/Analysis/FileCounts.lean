import Mathlib.Algebra.Group.Nat.Defs
import Mathlib.Data.List.Induction
import TestImpact.Analysis

/-!
# What an analysis counts of the files

The scan of the changed files is one loop with three counters; detecting over a list of changes is a
filter and a concatenation. Both find the same: the scan detects over the files that pass the filter
and counts every file once, by what stands in its way (`FileScan.ofFiles_eq`). The counts of the
report are those of the scan as long as they fit into 32 bits (`report_accounts_for_files`).
-/

namespace TestImpact

namespace FileScan

variable {d : Patch.Detector} {filter : Glob.Filter} {scan : FileScan} {file : FileChange}

/-- Whether a file is a source file that passes the filter. -/
def selects (d : Patch.Detector) (filter : Glob.Filter) (file : FileChange) : Bool :=
  d.handles file.filename && filter.accepts file.filename

/-! ## One file -/

/-- All that one file can do to a scan. -/
theorem step_cases (d : Patch.Detector) (filter : Glob.Filter) (scan : FileScan)
    (file : FileChange) :
    (selects d filter file = false ∧
      step d filter scan file = { scan with skipped := scan.skipped + 1 }) ∨
    (selects d filter file = true ∧ file.patch = none ∧
      step d filter scan file = { scan with withoutPatch := scan.withoutPatch + 1 }) ∨
    (selects d filter file = true ∧ file.patch.isSome = true ∧
      step d filter scan file = { scan with
        scanned := scan.scanned + 1
        methods := scan.methods ++ d.detectFile file }) := by
  have hguard : (!d.handles file.filename || !filter.accepts file.filename) =
      !selects d filter file := by
    rw [selects, Bool.not_and]
  unfold step
  rw [hguard]
  cases hs : selects d filter file with
  | false => exact .inl ⟨rfl, rfl⟩
  | true =>
    cases hp : file.patch with
    | none => exact .inr (.inl ⟨rfl, rfl, rfl⟩)
    | some patch =>
      refine .inr (.inr ⟨rfl, rfl, ?_⟩)
      rw [Patch.Detector.detectFile, hp]
      rfl

/-- How many files a scan has counted. -/
def counted (scan : FileScan) : Nat := scan.scanned + scan.skipped + scan.withoutPatch

/-- Every file is counted once. -/
theorem counted_step : (step d filter scan file).counted = scan.counted + 1 := by
  unfold counted
  rcases step_cases d filter scan file with ⟨-, he⟩ | ⟨-, -, he⟩ | ⟨-, -, he⟩
  · rw [he]
    show scan.scanned + (scan.skipped + 1) + scan.withoutPatch = _
    omega
  · rw [he]
    rfl
  · rw [he]
    show scan.scanned + 1 + scan.skipped + scan.withoutPatch = _
    omega

/-! ## All files -/

theorem ofFiles_concat (files : List FileChange) (file : FileChange) :
    ofFiles d filter (files ++ [file]) = step d filter (ofFiles d filter files) file :=
  List.foldl_append ..

/-- Each file of the list is counted once: scanned, skipped or without a patch. -/
theorem counted_ofFiles (d : Patch.Detector) (filter : Glob.Filter) (files : List FileChange) :
    (ofFiles d filter files).counted = files.length := by
  induction files using List.reverseRecOn with
  | nil => rfl
  | append_singleton files file ih =>
    rw [ofFiles_concat, counted_step, ih, List.length_append, List.length_singleton]

theorem detectAll_filter (files : List FileChange) :
    d.detectAll (files.filter fun f => filter.accepts f.filename) =
      (files.filter (selects d filter)).flatMap d.detectFile := by
  rw [Patch.Detector.detectAll, List.filter_filter]
  rfl

/-- The scan finds what detecting over the files that pass the filter finds, and it counts the files
by what stands in their way. -/
theorem ofFiles_eq (d : Patch.Detector) (filter : Glob.Filter) (files : List FileChange) :
    ofFiles d filter files = {
      methods := d.detectAll (files.filter fun f => filter.accepts f.filename)
      scanned := files.countP fun f => selects d filter f && f.patch.isSome
      skipped := files.countP fun f => !selects d filter f
      withoutPatch := files.countP fun f => selects d filter f && f.patch.isNone } := by
  induction files using List.reverseRecOn with
  | nil => rfl
  | append_singleton files file ih =>
    rw [detectAll_filter] at ih ⊢
    rw [ofFiles_concat, List.filter_append, List.flatMap_append]
    simp only [List.countP_append, List.countP_singleton]
    rcases step_cases d filter (ofFiles d filter files) file with
      ⟨hs, he⟩ | ⟨hs, hp, he⟩ | ⟨hs, hp, he⟩
    · rw [he, ih]
      simp [hs]
    · rw [he, ih]
      simp [hs, hp, Patch.Detector.detectFile]
    · rw [he, ih]
      simp [hs, hp, Option.isSome_iff_ne_none.mp hp]

/-- The scan gathers the methods of the selected files, in the order of the files. -/
theorem methods_ofFiles (d : Patch.Detector) (filter : Glob.Filter) (files : List FileChange) :
    (ofFiles d filter files).methods =
      (files.filter (selects d filter)).flatMap d.detectFile := by
  rw [ofFiles_eq]
  exact detectAll_filter files

end FileScan

/-! ## The report -/

/-- A count that fits into 32 bits is kept. -/
theorem Report.count_of_lt {n : Nat} (h : n < 2 ^ 32) : Report.count n = n := Nat.mod_eq_of_lt h

/-- The report on some files, the tables being at hand if methods are to be traced. -/
def AnalysisRequest.reportOn (request : AnalysisRequest) (d : Patch.Detector) (name : String)
    (files : List FileChange) (tables : Option ReferenceTables) (started ended : Moment) : Report :=
  let scan := FileScan.ofFiles d request.filter files
  request.report name files.length scan (tables.map (·.resolve scan.methods)) started ended

/-- That report with its renderings. -/
def AnalysisRequest.analysisOn (request : AnalysisRequest) (d : Patch.Detector) (name : String)
    (files : List FileChange) (tables : Option ReferenceTables) (started ended : Moment) :
    Analysis :=
  let report := request.reportOn d name files tables started ended
  ⟨report, report.markdown request.maxMethods, report.text⟩

@[simp] theorem AnalysisRequest.report_analysisOn (request : AnalysisRequest) (d : Patch.Detector)
    (name : String) (files : List FileChange) (tables : Option ReferenceTables)
    (started ended : Moment) :
    (request.analysisOn d name files tables started ended).report =
      request.reportOn d name files tables started ended := rfl

@[simp] theorem AnalysisRequest.changedMethods_reportOn (request : AnalysisRequest)
    (d : Patch.Detector) (name : String) (files : List FileChange) (tables : Option ReferenceTables)
    (started ended : Moment) :
    (request.reportOn d name files tables started ended).changedMethods =
      (FileScan.ofFiles d request.filter files).methods := rfl

/-- With a detector, files and the tables that are asked for, an analysis succeeds. -/
theorem analyze_eq_ok {request : AnalysisRequest} {d : Patch.Detector}
    (hd : request.detectorOf = .ok d) (name : String) (files : List FileChange)
    (tables : Option ReferenceTables) (started ended : Moment) :
    analyze request ⟨name, .ok files⟩ (tables.map .ok) started ended =
      .ok (request.analysisOn d name files tables started ended) := by
  unfold analyze
  rw [hd]
  cases tables with
  | none => rfl
  | some tables => rfl

/-- Such an analysis reports the methods that the scan of the files has found. -/
theorem exists_analyze {request : AnalysisRequest} {d : Patch.Detector}
    (hd : request.detectorOf = .ok d) (name : String) (files : List FileChange)
    (tables : Option ReferenceTables) (started ended : Moment) :
    ∃ a, analyze request ⟨name, .ok files⟩ (tables.map .ok) started ended = .ok a ∧
      a.report.changedMethods = (FileScan.ofFiles d request.filter files).methods :=
  ⟨_, analyze_eq_ok hd name files tables started ended, rfl⟩

/-- An analysis succeeds only if the detector can be made, the files are there, and so are the
tables if methods are to be traced. -/
theorem analyze_eq_ok_iff {request : AnalysisRequest} {source : ChangeSource}
    {tables : Option (Except String ReferenceTables)} {started ended : Moment} {a : Analysis} :
    analyze request source tables started ended = .ok a ↔
      ∃ d files loaded, request.detectorOf = .ok d ∧ source.files = .ok files ∧
        tables = Option.map .ok loaded ∧
        a = request.analysisOn d source.name files loaded started ended := by
  obtain ⟨name, files⟩ := source
  constructor
  · intro h
    unfold analyze at h
    cases hd : request.detectorOf with
    | error e =>
      rw [hd] at h
      cases h
    | ok d =>
      rw [hd] at h
      cases files with
      | error reason => cases h
      | ok files =>
        -- there are no tables, they cannot be loaded, or there are some
        rcases tables with _ | _ | loaded
        · cases h
          exact ⟨d, files, none, rfl, rfl, rfl, rfl⟩
        · cases h
        · cases h
          exact ⟨d, files, some loaded, rfl, rfl, rfl, rfl⟩
  · rintro ⟨d, files, loaded, hd, hfiles, rfl, rfl⟩
    obtain rfl : _ = Except.ok files := hfiles
    exact analyze_eq_ok hd name files loaded started ended

/-- The counters of the scan add up to the number of files, so none of them is cut off. -/
theorem AnalysisRequest.reportOn_counts (request : AnalysisRequest) (d : Patch.Detector)
    (name : String) {files : List FileChange} (hfew : files.length < 2 ^ 32)
    (tables : Option ReferenceTables) (started ended : Moment) :
    let scan := FileScan.ofFiles d request.filter files
    let data := (request.reportOn d name files tables started ended).data
    data.filesTotal = files.length ∧ data.filesScanned = scan.scanned ∧
      data.filesSkipped = scan.skipped ∧ data.filesWithoutPatch = scan.withoutPatch := by
  intro scan data
  have hcounted : scan.scanned + scan.skipped + scan.withoutPatch = files.length :=
    FileScan.counted_ofFiles d request.filter files
  refine ⟨?_, ?_, ?_, ?_⟩
  · exact Report.count_of_lt hfew
  · have hfits : scan.scanned < 2 ^ 32 := by omega
    exact Report.count_of_lt hfits
  · have hfits : scan.skipped < 2 ^ 32 := by omega
    exact Report.count_of_lt hfits
  · have hfits : scan.withoutPatch < 2 ^ 32 := by omega
    exact Report.count_of_lt hfits

/-- **The report accounts for every file.** If the pattern of the request can be read and the files
are there, fewer than 2³² of them, then an analysis with tables or without them succeeds. The
changed methods are those that the detector finds in the files that pass the filter; every file is
counted once; and the files that are scanned, or have no patch, are those that are source files,
pass the filter, and have a patch, or none. -/
theorem report_accounts_for_files {request : AnalysisRequest} {d : Patch.Detector}
    (hd : request.detectorOf = .ok d) (name : String) {files : List FileChange}
    (hfew : files.length < 2 ^ 32) (tables : Option ReferenceTables) (started ended : Moment) :
    ∃ a, analyze request ⟨name, .ok files⟩ (tables.map .ok) started ended = .ok a ∧
      a.report.changedMethods =
        d.detectAll (files.filter fun f => request.filter.accepts f.filename) ∧
      a.report.data.filesTotal = files.length ∧
      a.report.data.filesScanned + a.report.data.filesSkipped + a.report.data.filesWithoutPatch =
        a.report.data.filesTotal ∧
      a.report.data.filesScanned = files.countP (fun f =>
        d.handles f.filename && request.filter.accepts f.filename && f.patch.isSome) ∧
      a.report.data.filesWithoutPatch = files.countP fun f =>
        d.handles f.filename && request.filter.accepts f.filename && f.patch.isNone := by
  obtain ⟨htotal, hscanned, hskipped, hwithout⟩ :=
    request.reportOn_counts d name hfew tables started ended
  refine ⟨_, analyze_eq_ok hd name files tables started ended, ?_⟩
  rw [AnalysisRequest.report_analysisOn, AnalysisRequest.changedMethods_reportOn, htotal, hscanned,
    hskipped, hwithout]
  have hcounted := FileScan.counted_ofFiles d request.filter files
  rw [FileScan.ofFiles_eq] at hcounted ⊢
  exact ⟨rfl, rfl, hcounted, rfl, rfl⟩

/-- A listing with a source file, a source file without a patch, and a text. -/
def mixedFiles : List FileChange :=
  [⟨"src/A.java", some "@@ -1,2 +1,3 @@\n void run() \x7b\n+  go();\n \x7d", some "modified"⟩,
    ⟨"src/B.java", none, some "added"⟩, ⟨"README.md", some "@@ -1 +1 @@\n-a\n+b", none⟩]

/-- A class with a patch, a class without one and a text file: each is counted in its own place. -/
theorem report_accounts_for_files_mixed :
    ({} : AnalysisRequest).detectorOf = .ok {} ∧ mixedFiles.length < 2 ^ 32 ∧
    ∃ a, analyze {} ⟨"github", .ok mixedFiles⟩ none ⟨0⟩ ⟨0⟩ = .ok a ∧
      a.report.changedMethods = ["A.run()"] ∧ a.report.data.filesTotal = 3 ∧
      a.report.data.filesScanned = 1 ∧ a.report.data.filesSkipped = 1 ∧
      a.report.data.filesWithoutPatch = 1 := by
  have hd : ({} : AnalysisRequest).detectorOf = .ok {} := rfl
  have hfew : mixedFiles.length < 2 ^ 32 := by decide
  obtain ⟨a, ha, hmethods, htotal, hsum, hscanned, hwithout⟩ :=
    report_accounts_for_files hd "github" hfew none ⟨0⟩ ⟨0⟩
  have hfound : ({} : Patch.Detector).detectAll (mixedFiles.filter fun f =>
      ({} : AnalysisRequest).filter.accepts f.filename) = ["A.run()"] := by decide +kernel
  have hpatched : mixedFiles.countP (fun f => ({} : Patch.Detector).handles f.filename &&
      ({} : AnalysisRequest).filter.accepts f.filename && f.patch.isSome) = 1 := by decide +kernel
  have hunpatched : mixedFiles.countP (fun f => ({} : Patch.Detector).handles f.filename &&
      ({} : AnalysisRequest).filter.accepts f.filename && f.patch.isNone) = 1 := by decide +kernel
  rw [htotal, hscanned, hwithout, hpatched, hunpatched] at hsum
  refine ⟨hd, hfew, a, ha, hmethods.trans hfound, htotal, hscanned.trans hpatched, ?_,
    hwithout.trans hunpatched⟩
  have hlength : mixedFiles.length = 3 := rfl
  omega

end TestImpact
