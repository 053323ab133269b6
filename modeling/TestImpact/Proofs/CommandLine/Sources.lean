import Mathlib.Control.Monad.Basic
import TestImpact.CommandLine.Session
import TestImpact.Proofs.Hosting.Listing

/-!
# Sources of changed files

An analysis depends on its source through the changed files alone: under another name of the source,
the report tells this name and nothing else changes (`analyze_rename`). So a diff and a file with
the listing of what the diff is split into lead to the same analysis
(`listing_agrees_with_diff`).
-/

namespace TestImpact

/-- The analysis with another name of the source in its report. -/
def Analysis.fromSource (name : String) (a : Analysis) : Analysis :=
  { a with report.data.inputs.source := name }

/-- The source under another name. -/
def ChangeSource.rename (name : String) (source : ChangeSource) : ChangeSource :=
  { source with name := name }

/-- No rendering tells the source. -/
theorem analyze_rename (request : AnalysisRequest) (name : String) (source : ChangeSource)
    (tables : Option (Except String ReferenceTables)) (started ended : Moment) :
    analyze request (source.rename name) tables started ended =
      (analyze request source tables started ended).map (Analysis.fromSource name) := by
  obtain ⟨old, files⟩ := source
  unfold analyze ChangeSource.rename
  cases request.detectorOf with
  | error e => rfl
  | ok detector =>
    cases files with
    | error e => rfl
    | ok files =>
      -- there are no tables, they cannot be loaded, or there are some
      rcases tables with _ | _ | tables
      all_goals rfl

namespace CommandLine

section Rename

variable {m : Type → Type} [Monad m] [LawfulMonad m]

/-- A function can be applied to a result before or after it is attempted. -/
theorem attempt_map {ε α β : Type} (f : α → β) (result : Except ε α) (cause : ε → RunError) :
    attempt (m := m) (result.map f) cause = f <$> attempt result cause := by
  apply ExceptT.ext
  cases result <;> simp [attempt, Except.map]

/-- A function can be applied to what cannot fail before or after it is lifted. -/
theorem lift_map {α β : Type} (f : α → β) (x : m α) :
    (ExceptT.lift (f <$> x) : ExceptT RunError m β) = f <$> ExceptT.lift x := by
  apply ExceptT.ext
  simp [Except.map]

/-- Under another name of its source, a plan ends in the same way. -/
theorem Plan.analyze_rename [Files.FileAccess m] [Console m] (plan : Plan) (name : String)
    (source : m ChangeSource) :
    plan.analyze (ChangeSource.rename name <$> source) =
      Analysis.fromSource name <$> plan.analyze source := by
  simp only [Plan.analyze, lift_map, bind_map_left, map_bind, TestImpact.analyze_rename,
    attempt_map]

end Rename

/-! ## Sources in a session -/

variable {session : Session} {path : String} {files : List FileChange}

/-- How an analysis ends in a session, and the session that it leaves. -/
def inSession (analysis : ExceptT RunError SessionM Analysis) (session : Session) :
    Except RunError Analysis × Session :=
  analysis.run.run session

/-- What is done to an analysis at the end does not change the session. -/
theorem inSession_map (f : Analysis → Analysis) (analysis : ExceptT RunError SessionM Analysis)
    (session : Session) :
    inSession (f <$> analysis) session =
      Prod.map (Except.map f) id (inSession analysis session) := by
  rw [inSession, ExceptT.run_map, StateT.run_map]
  rfl

/-- Reading the clock leaves the files as they are. -/
theorem Session.tick_files (s : Session) : s.tick.files = s.files := by
  unfold Session.tick
  split <;> rfl

/-- Reading a listing leaves the session as it is. -/
theorem run_listingSource (h : session.files.readText path = .ok (FileChange.writeListing files)) :
    (listingSource path : SessionM ChangeSource).run session =
      pure (⟨Hosting.listingName, .ok files⟩, session) := by
  have hread : (Files.FileAccess.readText path : SessionM _).run session =
      pure (.ok (FileChange.writeListing files), session) := by
    rw [← h]
    rfl
  simp [listingSource, Hosting.loadListing, hread, Hosting.readPayload_writeListing,
    Except.mapError]

/-- The clock is read before the source, and nothing else is. -/
theorem Plan.run_analyze_congr (plan : Plan) {source other : SessionM ChangeSource}
    (h : source.run session.tick = other.run session.tick) :
    inSession (plan.analyze source) session = inSession (plan.analyze other) session := by
  have hnow : (Console.now : SessionM Moment).run session = pure (session.now, session.tick) :=
    rfl
  simp [inSession, Plan.analyze, hnow, h]

/-! ## A diff as a source -/

/-- Split the text of a diff and analyse its files. -/
def analyzeDiff {m : Type → Type} [Monad m] [Files.FileAccess m] [Console m] (plan : Plan)
    (text : String) : ExceptT RunError m Analysis := do
  let files ← attempt (Diff.split text.toList) .diff
  plan.analyze (pure { name := Diff.sourceName, files := .ok files })

/-- The command `detect` plans, reads the diff, and analyses it. -/
theorem detect_eq {m : Type → Type} [Monad m] [Files.FileAccess m] [Console m]
    (path : Option String) (o : AnalysisOptions) :
    detect (m := m) path o = (do
      let plan ← planOf o none
      let text ← readDiff path
      analyzeDiff { plan with request := { plan.request with sourcePath := diffPath? path } }
        text) :=
  rfl

/-- A diff that can be split is analysed as its files. -/
theorem analyzeDiff_of_split {m : Type → Type} [Monad m] [LawfulMonad m] [Files.FileAccess m]
    [Console m] (plan : Plan) {text : String} {files : List FileChange}
    (h : Diff.split text.toList = .ok files) :
    analyzeDiff (m := m) plan text = plan.analyze (pure ⟨Diff.sourceName, .ok files⟩) := by
  rw [analyzeDiff, h]
  exact pure_bind _ _

/-- **A diff and the listing of its files lead to the same analysis.** A listing gives back the
files that it was written from. If these are what a diff is split into, then both ways fail with the
same error or lead to the same report but for the name of the source, and to the same renderings,
whatever tables there are and whatever the clock shows. -/
theorem listing_agrees_with_diff :
    (∀ files : List FileChange,
      Hosting.readPayload (FileChange.writeListing files) = .ok files) ∧
    ∀ (text : String) (files : List FileChange) (session : Session) (path : String),
      Diff.split text.toList = .ok files →
      session.files.readText path = .ok (FileChange.writeListing files) →
      (∃ listing, (listingSource path : SessionM ChangeSource).run session = (listing, session) ∧
        ∀ request tables started ended,
          TestImpact.analyze request listing tables started ended =
            (TestImpact.analyze request ⟨Diff.sourceName, .ok files⟩ tables started ended).map
              (Analysis.fromSource Hosting.listingName)) ∧
      ∀ plan : Plan,
        inSession (plan.analyze (listingSource path)) session =
          Prod.map (Except.map (Analysis.fromSource Hosting.listingName)) id
            (inSession (analyzeDiff plan text) session) := by
  refine ⟨Hosting.readPayload_writeListing, ?_⟩
  intro text files session path hsplit hfile
  have hrename : (⟨Hosting.listingName, .ok files⟩ : ChangeSource) =
      ChangeSource.rename Hosting.listingName ⟨Diff.sourceName, .ok files⟩ := rfl
  refine ⟨⟨_, run_listingSource hfile, ?_⟩, ?_⟩
  · intro request tables started ended
    rw [hrename, TestImpact.analyze_rename]
  · intro plan
    -- the clock has ticked when the listing is read, which leaves the files as they are
    have hsource : (listingSource path : SessionM ChangeSource).run session.tick =
        (ChangeSource.rename Hosting.listingName <$>
          (pure ⟨Diff.sourceName, .ok files⟩ : SessionM ChangeSource)).run session.tick :=
      run_listingSource (session.tick_files ▸ hfile)
    rw [plan.run_analyze_congr hsource, plan.analyze_rename, analyzeDiff_of_split plan hsplit,
      inSession_map]

/-- A change of a method with a text in quotes, and an image that is deleted. -/
def twoFileDiff : String :=
  "diff --git a/A.java b/A.java\n@@ -1,2 +1,3 @@\n void run() \x7b\n+\tgo(\"x\");\n \x7d\n" ++
    "diff --git a/logo.png b/logo.png\ndeleted file mode 100644\nBinary files differ\n"

def twoFiles : List FileChange :=
  [⟨"A.java", some "@@ -1,2 +1,3 @@\n void run() \x7b\n+\tgo(\"x\");\n \x7d", some "modified"⟩,
    ⟨"logo.png", none, some "removed"⟩]

/-- A session that has the listing of the two files. -/
def listingSession : Session :=
  { files := { nodes := [(["f"], .file (some (FileChange.writeListing twoFiles)))] } }

theorem readText_listingSession :
    listingSession.files.readText "f" = .ok (FileChange.writeListing twoFiles) := by
  have hcomponents : Files.Path.components "f" = ["f"] := by cbv
  rw [listingSession]
  generalize FileChange.writeListing twoFiles = text
  unfold Files.Tree.readText Files.Tree.place
  rw [hcomponents]
  rfl

/-- The plan of a run without settings and tables. -/
def usualPlan : Plan where
  settings := {}
  tables := none
  request := {}

/-- A listing and a diff of two files, one of which touches a method: both runs report it. -/
theorem listing_agrees_with_diff_twoFiles :
    Diff.split twoFileDiff.toList = .ok twoFiles ∧
    listingSession.files.readText "f" = .ok (FileChange.writeListing twoFiles) ∧
    (∃ listing, (listingSource "f" : SessionM ChangeSource).run listingSession =
        (listing, listingSession) ∧
      ∀ request tables started ended,
        TestImpact.analyze request listing tables started ended =
          (TestImpact.analyze request ⟨Diff.sourceName, .ok twoFiles⟩ tables started ended).map
            (Analysis.fromSource Hosting.listingName)) ∧
    (∀ plan : Plan,
      inSession (plan.analyze (listingSource "f")) listingSession =
        Prod.map (Except.map (Analysis.fromSource Hosting.listingName)) id
          (inSession (analyzeDiff plan twoFileDiff) listingSession)) ∧
    ∃ a, (inSession (analyzeDiff usualPlan twoFileDiff) listingSession).1 = .ok a ∧
      a.report.changedMethods = ["A.run()"] ∧ a.report.data.inputs.source = Diff.sourceName ∧
      ∃ b, (inSession (usualPlan.analyze (listingSource "f")) listingSession).1 = .ok b ∧
        b.report.changedMethods = ["A.run()"] ∧
        b.report.data.inputs.source = Hosting.listingName := by
  have hsplit : Diff.split twoFileDiff.toList = .ok twoFiles := by decide +kernel
  obtain ⟨hlisting, hruns⟩ :=
    listing_agrees_with_diff.2 _ _ _ _ hsplit readText_listingSession
  refine ⟨hsplit, readText_listingSession, hlisting, hruns, ?_⟩
  have hfound : ((inSession (analyzeDiff usualPlan twoFileDiff) listingSession).1.map fun a =>
      (a.report.changedMethods, a.report.data.inputs.source)) =
        .ok (["A.run()"], Diff.sourceName) := by
    decide +kernel
  have hrun := hruns usualPlan
  cases ha : (inSession (analyzeDiff usualPlan twoFileDiff) listingSession).1 with
  | error e =>
    rw [ha] at hfound
    cases hfound
  | ok a =>
    rw [ha, Except.map, Except.ok.injEq, Prod.mk.injEq] at hfound
    refine ⟨a, rfl, hfound.1, hfound.2, a.fromSource Hosting.listingName, ?_, hfound.1, rfl⟩
    rw [hrun, Prod.map_fst, ha]
    rfl

end CommandLine

end TestImpact
