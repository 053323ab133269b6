import TestImpact.Proofs.Analysis.FileCounts
import TestImpact.Proofs.CommandLine.Reading

/-!
# The renderings of a run

A run looks up variables and settings, reads a diff or a listing, and analyses it. Only the last of
these makes an analysis, and its plan has the limit of the command line. What every result of a
computation has (`Returns`) is passed on through a sequence, so the analysis of a command holds the
renderings of its own report (`returns_check`, `returns_detect`).
-/

namespace TestImpact

/-- The renderings are those of the report, the markdown one with at most `limit` methods. -/
structure Analysis.Rendered (a : Analysis) (limit : Nat) : Prop where
  text_eq : a.text = a.report.text
  markdown_eq : a.markdown = a.report.markdown limit

/-- An analysis renders the report that it makes. -/
theorem rendered_of_analyze {request : AnalysisRequest} {source : ChangeSource}
    {tables : Option (Except String ReferenceTables)} {started ended : Moment} {a : Analysis}
    (h : analyze request source tables started ended = .ok a) : a.Rendered request.maxMethods := by
  obtain ⟨d, files, loaded, -, -, -, rfl⟩ := analyze_eq_ok_iff.mp h
  exact ⟨rfl, rfl⟩

namespace CommandLine

/-! ## Properties of results -/

/-- Whatever the computation returns, in whatever session, has the property. -/
def Returns {α : Type} (x : ExceptT RunError SessionM α) (P : α → Prop) : Prop :=
  ∀ (s : Session) (a : α), (x.run.run s).1 = .ok a → P a

namespace Returns

variable {α β ε : Type} {P : α → Prop} {Q : β → Prop}

/-- A value is returned as it is. -/
theorem pure {a : α} (h : P a) : Returns (Pure.pure a) P := by
  intro s b hb
  cases hb
  exact h

/-- A failure returns nothing. -/
theorem throw (cause : RunError) : Returns (throw cause : ExceptT RunError SessionM α) P := by
  intro s a ha
  cases ha

/-- A result that is there already is returned unless it is an error. -/
theorem attempt {result : Except ε α} {cause : ε → RunError} (h : ∀ a, result = .ok a → P a) :
    Returns (attempt result cause) P := by
  cases result with
  | ok a => exact .pure (h a rfl)
  | error e => exact .throw _

/-- What the second of two computations returns may rest on what the first one has returned. -/
theorem bind {x : ExceptT RunError SessionM α} {f : α → ExceptT RunError SessionM β}
    (hx : Returns x P) (hf : ∀ a, P a → Returns (f a) Q) : Returns (x >>= f) Q := by
  intro s b hb
  rcases run_bind x f s with ⟨e, after, -, hrun⟩ | ⟨a, after, hfirst, hrun⟩
  · rw [hrun] at hb
    cases hb
  · rw [hrun] at hb
    have ha : P a := hx s a (congrArg Prod.fst hfirst)
    exact hf a ha after b hb

/-- What the second of two computations returns may have nothing to do with the first one. -/
theorem andThen {x : ExceptT RunError SessionM α} {f : α → ExceptT RunError SessionM β}
    (hf : ∀ a, Returns (f a) Q) : Returns (x >>= f) Q := by
  have hx : Returns x fun _ => True := fun _ _ _ => trivial
  exact hx.bind fun a _ => hf a

end Returns

/-! ## Plans and analyses -/

/-- How many methods the markdown rendering of a run lists at most. -/
def AnalysisOptions.limit (o : AnalysisOptions) : Nat :=
  o.maxMethods.getD Report.defaultMaxMethods

/-- A plan has the limit of the command line. -/
theorem returns_planOf (o : AnalysisOptions) (apiUrl : Option String) :
    Returns (planOf o apiUrl) fun plan => plan.request.maxMethods = o.limit := by
  apply Returns.andThen
  intro settings
  apply Returns.andThen
  intro tables
  exact .pure rfl

/-- What a plan analyses is rendered with the limit of the plan. -/
theorem Plan.returns_analyze (plan : Plan) (source : SessionM ChangeSource) :
    Returns (plan.analyze source) fun a => a.Rendered plan.request.maxMethods := by
  apply Returns.andThen
  intro started
  apply Returns.andThen
  intro source
  apply Returns.andThen
  intro tables
  apply Returns.andThen
  intro ended
  exact .attempt fun a => rendered_of_analyze

/-- The command `check` returns the renderings of its report. -/
theorem returns_check (number : Nat) (token repository apiUrl listing : Option String)
    (o : AnalysisOptions) :
    Returns (check number token repository apiUrl listing o) fun a => a.Rendered o.limit := by
  apply Returns.andThen
  intro token
  apply Returns.andThen
  intro repository
  refine (returns_planOf o apiUrl).bind fun plan hlimit => ?_
  rw [← hlimit]
  cases listing with
  | some path => exact Plan.returns_analyze _ _
  | none =>
    dsimp only
    split
    · exact .throw _
    · exact .throw _
    · apply Returns.andThen
      intro client
      exact Plan.returns_analyze _ _

/-- The command `detect` returns the renderings of its report. -/
theorem returns_detect (path : Option String) (o : AnalysisOptions) :
    Returns (detect path o) fun a => a.Rendered o.limit := by
  refine (returns_planOf o none).bind fun plan hlimit => ?_
  rw [← hlimit]
  apply Returns.andThen
  intro text
  apply Returns.andThen
  intro files
  exact Plan.returns_analyze _ _

end CommandLine

end TestImpact
