import TestImpact.Proofs.CommandLine.Renderings
import TestImpact.Proofs.CommandLine.Sources
import TestImpact.Proofs.Files.Writing

/-!
# The writing part of a run

One output at a time is written: what a file has to hold is read back from it, and besides only
directories above it may be new (`ends_write`). So a list of outputs is written, or one of them
cannot be (`ends_writeAll`). With a reading part before it that writes nothing, a run leaves all of
its outputs or, unless one of them cannot be written, nothing (`run_all_or_nothing`).
-/

namespace TestImpact.CommandLine

open Files

/-- The path of an output that is a file. -/
def Output.path? : Output → Option String
  | .standard _ => none
  | .file path _ => some path

/-- What an output adds to standard output. -/
def Output.printed : Output → String
  | .standard text => text
  | .file .. => ""

/-- The outputs are written and nothing else is: every file holds its text, if the files are
different ones. -/
structure Wrote (outputs : List Output) (s after : Session) : Prop where
  output : after.output = s.output ++ String.join (outputs.map Output.printed)
  rewritten : Tree.Rewritten (outputs.filterMap Output.path?) s.files after.files
  holds : (outputs.filterMap Output.path?).Pairwise (fun path other =>
      ¬ after.files.SameFile path other) →
    ∀ path text, Output.file path text ∈ outputs → ∃ place, after.files.Holds path place text

/-- All outputs are written, or an error tells that one of them cannot be. -/
def Ends (outputs : List Output) (s : Session) (result : Except RunError Unit × Session) : Prop :=
  (∃ e, result.1 = .error e ∧ e.isOutputFailure = true) ∨
    (result.1 = .ok () ∧ Wrote outputs s result.2)

namespace Wrote

variable {s mid after : Session} {output : Output} {outputs : List Output}

/-- Without outputs nothing is written. -/
theorem nil (s : Session) : Wrote [] s s where
  output := s.output.append_empty.symm
  rewritten := .refl _ _
  holds := by
    intro _ path text hmem
    cases hmem

/-- A text is added to standard output. -/
theorem standard (text : String) (s : Session) :
    Wrote [.standard text] s { s with output := s.output ++ text } where
  output := by simp [Output.printed, String.join]
  rewritten := .refl _ _
  holds := by
    intro _ path content hmem
    simp at hmem

/-- A file holds its text, and nothing else has been written. -/
theorem file {path text : String} {place : List String} {files : Tree} (s : Session)
    (hholds : files.Holds path place text) (hrewritten : Tree.Rewritten [path] s.files files) :
    Wrote [.file path text] s { s with files } where
  output := by simp [Output.printed, String.join]
  rewritten := hrewritten
  holds := by
    intro _ other content hmem
    rw [List.mem_singleton] at hmem
    cases hmem
    exact ⟨place, hholds⟩

/-- What one output has left is not touched by those after it. -/
theorem cons (h : Wrote [output] s mid) (h' : Wrote outputs mid after) :
    Wrote (output :: outputs) s after where
  output := by
    have hjoin := h.output
    rw [h'.output, hjoin]
    simp [String.join_cons, String.append_assoc]
  rewritten := by
    have hpaths : (output :: outputs).filterMap Output.path? =
        [output].filterMap Output.path? ++ outputs.filterMap Output.path? :=
      List.filterMap_append (l := [output])
    rw [hpaths]
    exact h.rewritten.trans h'.rewritten
  holds := by
    intro hdifferent path text hmem
    rcases List.mem_cons.mp hmem with rfl | htail
    · have hpair := List.pairwise_cons.mp hdifferent
      obtain ⟨place, hholds⟩ := h.holds (List.pairwise_singleton _ _) path text
        (List.mem_singleton_self _)
      exact ⟨place, h'.rewritten.holds hholds hpair.1⟩
    · apply h'.holds _ path text htail
      exact hdifferent.sublist ((List.sublist_cons_self output outputs).filterMap _)

/-- What has been read before does not matter. -/
theorem of_undisturbed (h : s.Undisturbed mid) (h' : Wrote outputs mid after) :
    Wrote outputs s after where
  output := h.output ▸ h'.output
  rewritten := h.files ▸ h'.rewritten
  holds := h'.holds

end Wrote

/-! ## Outputs one after the other -/

theorem run_lift_bind {α β : Type} (x : SessionM α) (f : α → ExceptT RunError SessionM β)
    (s : Session) :
    (ExceptT.lift x >>= f).run.run s = (f (x.run s).1).run.run (x.run s).2 := rfl

/-- A file is written in the tree of the session. -/
theorem run_writeText (path text : String) (s : Session) :
    (FileAccess.writeText path text : SessionM _).run s =
      match s.files.writeText path text with
      | .ok files => (.ok (), { s with files })
      | .error cause => (.error cause, s) := by
  show StateT.run (match s.files.writeText path text with | .ok files => _ | .error e => _) s = _
  cases s.files.writeText path text with
  | ok files => rfl
  | error cause => rfl

/-- Directories are made in the tree of the session, also if one of them cannot be. -/
theorem run_makeDirectories (path : String) (s : Session) :
    (FileAccess.makeDirectories path : SessionM _).run s =
      ((s.files.makeDirectories (Path.ancestors path)).2,
        { s with files := (s.files.makeDirectories (Path.ancestors path)).1 }) := rfl

/-- The second half of writing a file. -/
theorem ends_writeText {path text : String} {files : Tree} (s : Session)
    (hmade : Tree.Made (Tree.above path) s.files files) :
    Ends [.file path text] s ((ExceptT.lift (FileAccess.writeText path text) >>= fun written =>
      (attempt written (.unwritable path) : ExceptT RunError SessionM Unit)).run.run
        { s with files }) := by
  rw [run_lift_bind, run_writeText]
  cases hwritten : files.writeText path text with
  | error cause => exact .inl ⟨.unwritable path cause, rfl, rfl⟩
  | ok after =>
    obtain ⟨place, hholds, hrewritten⟩ := Tree.rewritten_of_writeText hmade hwritten
    exact .inr ⟨rfl, .file s hholds hrewritten⟩

/-- Writing a file makes the directories above it first. -/
theorem ends_writeFile (path text : String) (s : Session) :
    Ends [.file path text] s ((writeFile (m := SessionM) path text).run.run s) := by
  unfold writeFile
  cases habove : (Path.parent? path).filter (!·.isEmpty) with
  | none =>
    apply ends_writeText s
    exact .refl _ _
  | some directory =>
    have hmade := Tree.made_makeDirectories s.files (Path.ancestors directory)
    have hdirectories : Tree.above path = Path.ancestors directory := by
      rw [Tree.above, habove]
      rfl
    dsimp only
    rw [run_lift_bind, run_makeDirectories]
    cases (s.files.makeDirectories (Path.ancestors directory)).2 with
    | error cause => exact .inl ⟨.noDirectory directory cause, rfl, rfl⟩
    | ok made =>
      apply ends_writeText s
      rw [hdirectories]
      exact hmade

/-- An output is written, or an error tells that it cannot be. -/
theorem ends_write (output : Output) (s : Session) :
    Ends [output] s ((output.write (m := SessionM)).run.run s) := by
  cases output with
  | standard text => exact .inr ⟨rfl, .standard text s⟩
  | file path text => exact ends_writeFile path text s

/-- Outputs are written up to the first one that cannot be. -/
theorem ends_writeAll (outputs : List Output) (s : Session) :
    Ends outputs s ((outputs.forM (m := ExceptT RunError SessionM) Output.write).run.run s) := by
  induction outputs generalizing s with
  | nil => exact .inr ⟨rfl, .nil s⟩
  | cons output outputs ih =>
    have hfirst := ends_write output s
    have hcons : (output :: outputs).forM (m := ExceptT RunError SessionM) Output.write =
        output.write >>= fun _ => outputs.forM Output.write := rfl
    rw [hcons]
    rcases run_bind output.write (fun _ => outputs.forM Output.write) s with
      ⟨e, after, hrun, htotal⟩ | ⟨_, mid, hrun, htotal⟩
    · rw [hrun] at hfirst
      rw [htotal]
      rcases hfirst with ⟨reason, hreason, hfailure⟩ | ⟨hok, -⟩
      · exact .inl ⟨reason, hreason, hfailure⟩
      · cases hok
    · rw [hrun] at hfirst
      rw [htotal]
      rcases hfirst with ⟨reason, hreason, -⟩ | ⟨-, hwrote⟩
      · cases hreason
      · rcases ih mid with hfailed | ⟨hok, hrest⟩
        · exact .inl hfailed
        · exact .inr ⟨hok, hwrote.cons hrest⟩

/-! ## A whole run -/

/-- The analysis that a command runs, with its options. To explain a code takes none. -/
def Command.analysis? {m : Type → Type} [Monad m] [FileAccess m] [Console m] [Hosting.Service m] :
    Command → Option (ExceptT RunError m Analysis × AnalysisOptions)
  | .check number token repository apiUrl listing o =>
    some (CommandLine.check number token repository apiUrl listing o, o)
  | .detect path o => some (CommandLine.detect path o, o)
  | .explain _ => none

/-- The files that are asked for. -/
def AnalysisOptions.targets (o : AnalysisOptions) : List String :=
  o.out.toList ++ o.markdownCopy.toList

/-- The text is where the report is asked for: in the file of that path, or else on standard output,
behind what stood there. -/
def AnalysisOptions.Presents (o : AnalysisOptions) (text : String) (s after : Session) : Prop :=
  match o.out with
  | none => after.output = s.output ++ text
  | some path => after.output = s.output ∧ after.files.readText path = .ok text

/-- The report is presented in the format that is asked for, and the markdown copy is written;
nothing else has changed but directories above these files. -/
structure Delivered (o : AnalysisOptions) (a : Analysis) (s after : Session) : Prop where
  text : o.format = .text → o.Presents a.text s after
  markdown : o.format = .markdown → o.Presents a.markdown s after
  json : o.format = .json → o.Presents a.report.json s after
  copy : ∀ path ∈ o.markdownCopy, after.files.readText path = .ok a.markdown
  others : Tree.Rewritten o.targets s.files after.files

section Analyses

variable {command : Command} {analysis : ExceptT RunError SessionM Analysis} {o : AnalysisOptions}
  {a : Analysis} {s after : Session}

/-- The analysis of a command only reads. -/
theorem onlyReads_of_analysis? (h : command.analysis? = some (analysis, o)) :
    OnlyReads analysis := by
  cases command with
  | check number token repository apiUrl listing o =>
    cases h
    exact onlyReads_check number token repository apiUrl listing o
  | detect path o =>
    cases h
    exact onlyReads_detect path o
  | explain code => cases h

/-- The analysis of a command holds the renderings of its report. -/
theorem returns_of_analysis? (h : command.analysis? = some (analysis, o)) :
    Returns analysis fun a => a.Rendered o.limit := by
  cases command with
  | check number token repository apiUrl listing o =>
    cases h
    exact returns_check number token repository apiUrl listing o
  | detect path o =>
    cases h
    exact returns_detect path o
  | explain code => cases h

/-- A command with an analysis runs it and writes its outputs. -/
theorem run_of_analysis? (h : command.analysis? = some (analysis, o)) :
    command.run = runAnalysis analysis o := by
  cases command with
  | check number token repository apiUrl listing o =>
    cases h
    rfl
  | detect path o =>
    cases h
    rfl
  | explain code => cases h

/-- Only a report without a file is printed. -/
theorem printed_outputs : String.join ((o.outputs a).map Output.printed) =
    o.out.elim (rendering a o.format) fun _ => "" := by
  unfold AnalysisOptions.outputs
  cases o.out <;> cases o.markdownCopy <;> simp [Output.printed, String.join]

/-- The two outputs are files that differ, as far as both are asked for. -/
theorem pairwise_targets
    (hdifferent : ∀ out ∈ o.out, ∀ copy ∈ o.markdownCopy, ¬ after.files.SameFile out copy) :
    o.targets.Pairwise fun path other => ¬ after.files.SameFile path other := by
  unfold AnalysisOptions.targets
  apply List.pairwise_append.mpr
  refine ⟨?_, ?_, ?_⟩
  · cases o.out <;> simp
  · cases o.markdownCopy <;> simp
  · simpa using hdifferent

/-- Outputs that are written are delivered. -/
theorem delivered_of_wrote (h : Wrote (o.outputs a) s after)
    (hdifferent : ∀ out ∈ o.out, ∀ copy ∈ o.markdownCopy, ¬ after.files.SameFile out copy) :
    Delivered o a s after := by
  have hpaths : (o.outputs a).filterMap Output.path? = o.targets := by
    unfold AnalysisOptions.outputs AnalysisOptions.targets
    cases o.out <;> cases o.markdownCopy <;> rfl
  -- no other output has been written to the same file afterwards
  have hread : ∀ path text, Output.file path text ∈ o.outputs a →
      after.files.readText path = .ok text := by
    intro path text hmem
    obtain ⟨place, hholds⟩ := h.holds (hpaths ▸ pairwise_targets hdifferent) path text hmem
    exact hholds.readText
  have hpresents : o.Presents (rendering a o.format) s after := by
    have houtput := h.output
    rw [printed_outputs] at houtput
    unfold AnalysisOptions.Presents
    cases hout : o.out with
    | none => rw [houtput, hout, Option.elim_none]
    | some path =>
      constructor
      · rw [houtput, hout, Option.elim_some, String.append_empty]
      · apply hread
        simp [AnalysisOptions.outputs, hout]
  refine ⟨?_, ?_, ?_, ?_, hpaths ▸ h.rewritten⟩
  · intro hformat
    rwa [hformat] at hpresents
  · intro hformat
    rwa [hformat] at hpresents
  · intro hformat
    rwa [hformat] at hpresents
  · intro path hpath
    apply hread
    simp [AnalysisOptions.outputs, Option.mem_def.mp hpath]

/-- Either the analysis has failed, and nothing is written, or its outputs are. -/
theorem run_perform (h : OnlyReads analysis) (o : AnalysisOptions) (s : Session) :
    (∃ e after, inSession analysis s = (.error e, after) ∧
      (perform analysis o).run.run s = (.error e, after) ∧ s.Undisturbed after) ∨
    ∃ a, (inSession analysis s).1 = .ok a ∧
      Ends (o.outputs a) s ((perform analysis o).run.run s) := by
  have hquiet := h.quiet s
  rcases run_bind analysis (fun a => (o.outputs a).forM Output.write) s with
    ⟨e, after, hrun, htotal⟩ | ⟨a, mid, hrun, htotal⟩
  · rw [hrun] at hquiet
    exact .inl ⟨e, after, hrun, htotal, hquiet⟩
  · rw [hrun] at hquiet
    right
    refine ⟨a, congrArg Prod.fst hrun, ?_⟩
    rw [perform, htotal]
    rcases ends_writeAll (o.outputs a) mid with hfailed | ⟨hok, hwrote⟩
    · exact .inl hfailed
    · exact .inr ⟨hok, hwrote.of_undisturbed hquiet⟩

/-- An error makes the exit code 1. It is told, which changes neither files nor standard output. -/
theorem runAnalysis_of_error {e : RunError}
    (h : ((perform analysis o).run.run s).1 = .error e) :
    ((runAnalysis analysis o).run s).1 = 1 ∧
      ((runAnalysis analysis o).run s).2.files = ((perform analysis o).run.run s).2.files ∧
      ((runAnalysis analysis o).run s).2.output = ((perform analysis o).run.run s).2.output := by
  unfold runAnalysis
  rw [StateT.run_bind]
  rcases hperform : (perform analysis o).run.run s with ⟨_ | _, left⟩
  · exact ⟨rfl, rfl, rfl⟩
  · rw [hperform] at h
    cases h

/-- Without an error the exit code is 0, and nothing is told. -/
theorem runAnalysis_of_ok (h : ((perform analysis o).run.run s).1 = .ok ()) :
    (runAnalysis analysis o).run s = (0, ((perform analysis o).run.run s).2) := by
  unfold runAnalysis
  rw [StateT.run_bind]
  rcases hperform : (perform analysis o).run.run s with ⟨_ | _, left⟩
  · rw [hperform] at h
    cases h
  · rfl

end Analyses

/-- **A run leaves all of its outputs or nothing.** The exit code of an accepted command is 1 if its
run ends with an error and 0 if it does not. Unless the error is that an output cannot be written,
which is never why an analysis fails, no file and no directory has been made or changed then, and
nothing has been written to standard output. If the exit code is 0, then there is an analysis, with
the renderings of its report, and all of it that is asked for has been written. -/
theorem run_all_or_nothing {words : List String} {command : Command}
    {analysis : ExceptT RunError SessionM Analysis} {o : AnalysisOptions}
    (hparse : Command.parse words = .ok command)
    (hanalysis : command.analysis? = some (analysis, o)) (s : Session) :
    let ended := ((perform analysis o).run.run s).1
    let code := ((run words : SessionM UInt32).run s).1
    let after := ((run words : SessionM UInt32).run s).2
    (∀ e, ended = .error e → code = 1) ∧
    (ended = .ok () → code = 0) ∧
    (∀ e, ended = .error e → e.isOutputFailure = false →
      after.files = s.files ∧ after.output = s.output) ∧
    (∀ e, (inSession analysis s).1 = .error e → ended = .error e ∧ e.isOutputFailure = false) ∧
    (code = 0 → ∃ a, (inSession analysis s).1 = .ok a ∧ a.Rendered o.limit ∧
      ((∀ out ∈ o.out, ∀ copy ∈ o.markdownCopy, ¬ after.files.SameFile out copy) →
        Delivered o a s after)) := by
  have hrun : (run words : SessionM UInt32).run s = (runAnalysis analysis o).run s := by
    rw [run, hparse, ← run_of_analysis? hanalysis]
  intro ended code after
  have hfails : ∀ e, ended = .error e → code = 1 ∧
      after.files = ((perform analysis o).run.run s).2.files ∧
      after.output = ((perform analysis o).run.run s).2.output := by
    intro e hended
    have hleft := runAnalysis_of_error hended
    rwa [← hrun] at hleft
  have hsucceeds : ended = .ok () →
      code = 0 ∧ after = ((perform analysis o).run.run s).2 := by
    intro hended
    have hleft := hrun.trans (runAnalysis_of_ok hended)
    exact ⟨congrArg Prod.fst hleft, congrArg Prod.snd hleft⟩
  have hreads := onlyReads_of_analysis? hanalysis
  have hparts := run_perform hreads o s
  refine ⟨fun e hended => (hfails e hended).1, fun hended => (hsucceeds hended).1, ?_, ?_, ?_⟩
  · -- an error that is none of writing is that of the analysis, which has only read
    intro e hended hother
    obtain ⟨-, hfiles, houtput⟩ := hfails e hended
    rw [hfiles, houtput]
    rcases hparts with ⟨_, mid, -, hperform, hquiet⟩ | ⟨a, -, ⟨reason, herror, hfailure⟩ | ⟨hok, -⟩⟩
    · rw [hperform]
      exact ⟨hquiet.files, hquiet.output⟩
    · cases hended.symm.trans herror
      rw [hfailure] at hother
      cases hother
    · cases hended.symm.trans hok
  · intro e hfailed
    rcases hparts with ⟨reason, mid, hfirst, hperform, -⟩ | ⟨a, hok, -⟩
    · rw [hfirst] at hfailed
      cases hfailed
      exact ⟨congrArg Prod.fst hperform, hreads.error s e (congrArg Prod.fst hfirst)⟩
    · cases hfailed.symm.trans hok
  · intro hcode
    have hnone : ∀ e, ended ≠ .error e := by
      intro e hended
      have hone := (hfails e hended).1
      rw [hcode] at hone
      cases hone
    rcases hparts with ⟨e, mid, -, hperform, -⟩ | ⟨a, hok, ⟨e, herror, -⟩ | ⟨hended, hwrote⟩⟩
    · exact absurd (congrArg Prod.fst hperform) (hnone e)
    · exact absurd herror (hnone e)
    · have hrendered := returns_of_analysis? hanalysis s a hok
      rw [(hsucceeds hended).2]
      exact ⟨a, hok, hrendered, delivered_of_wrote hwrote⟩

/-- Detect the methods of a diff; the report as a text and a markdown copy are written to files. -/
def detectWords : List String :=
  ["detect", "--diff-file", "d", "--format", "text", "--out", "o/r", "--md", "m"]

def detectOptions : AnalysisOptions :=
  { format := .text, out := some "o/r", markdownCopy := some "m" }

/-- How the run of these words ends. -/
def detected (s : Session) : UInt32 × Session := (run detectWords : SessionM UInt32).run s

/-- A session that has a diff, which adds a call to a method. -/
def diffSession : Session where
  files := { nodes := [(["d"], .file (some
    "diff --git a/A.java b/A.java\n@@ -1,2 +1,3 @@\n void run() \x7b\n+  go();\n \x7d\n"))] }

theorem run_all_or_nothing_detectWords :
    Command.parse detectWords = .ok (.detect (some "d") detectOptions) ∧
    ((detected diffSession).1 = 0 ∧ (detected diffSession).2.output = "" ∧
      (detected diffSession).2.files.readText "o/r" =
        .ok "Changed methods (1):\n  A.run()\n" ∧
      (detected diffSession).2.files.readText "m" =
        .ok "### 🔍 Changed Methods in PR:\n🔹 `A.run()`\n") ∧
    (detected {}).1 = 1 ∧ (detected {}).2.files.nodes = [] ∧ (detected {}).2.output = "" := by
  have hparse : Command.parse detectWords = .ok (.detect (some "d") detectOptions) := by
    decide +kernel
  refine ⟨hparse, ?_, ?_⟩
  · obtain ⟨-, -, -, -, hsuccess⟩ := run_all_or_nothing hparse rfl diffSession
    have hcode : (detected diffSession).1 = 0 := by decide +kernel
    have hplace : (detected diffSession).2.files.place "o/r" ≠
        (detected diffSession).2.files.place "m" := by
      decide +kernel
    have hanalysis : (inSession (detect (some "d") detectOptions) diffSession).1.map
        (fun a => (a.text, a.markdown)) = .ok ("Changed methods (1):\n  A.run()\n",
          "### 🔍 Changed Methods in PR:\n🔹 `A.run()`\n") := by
      decide +kernel
    unfold detected at hcode hplace ⊢
    obtain ⟨a, ha, -, hdelivered⟩ := hsuccess hcode
    rw [ha, Except.map, Except.ok.injEq, Prod.mk.injEq] at hanalysis
    obtain ⟨htext, hmarkdown⟩ := hanalysis
    have hwritten := hdelivered <| by
      rintro out ⟨⟩ copy ⟨⟩ ⟨place, hout, hcopy⟩
      exact hplace (hout.trans hcopy.symm)
    obtain ⟨houtput, hreport⟩ := hwritten.text rfl
    have hcopy := hwritten.copy "m" rfl
    rw [htext] at hreport
    rw [hmarkdown] at hcopy
    exact ⟨hcode, houtput, hreport, hcopy⟩
  · obtain ⟨hfailure, -, hunwritten, hended, -⟩ := run_all_or_nothing hparse rfl {}
    have hfailed : (inSession (detect (some "d") detectOptions) {}).1 =
        .error (.unreadable "d" .notFound) := by
      rfl
    obtain ⟨herror, hreads⟩ := hended _ hfailed
    obtain ⟨hfiles, houtput⟩ := hunwritten _ herror hreads
    unfold detected
    exact ⟨hfailure _ herror, congrArg Tree.nodes hfiles, houtput⟩

end TestImpact.CommandLine
