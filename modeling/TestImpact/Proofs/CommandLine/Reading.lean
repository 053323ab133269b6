import TestImpact.CommandLine.Session

/-!
# The reading part of a run

Up to its outputs a run only reads: settings, tables, a diff or a listing, variables, the clock, and
answers of the hosting service. Computations that write nothing are closed under sequencing
(`Quiet.bind`, `OnlyReads.bind`), so an analysis writes nothing because its parts do not
(`onlyReads_check`, `onlyReads_detect`). Nor does it fail for the reason that an output cannot be
written.
-/

namespace TestImpact.CommandLine

/-- Whether an error tells that an output cannot be written. -/
def RunError.isOutputFailure : RunError → Bool
  | .unwritable .. | .noDirectory .. => true
  | _ => false

/-- Nothing has been written, neither to a file nor to standard output, and no error has been
told. -/
structure Session.Undisturbed (s after : Session) : Prop where
  files : after.files = s.files
  output : after.output = s.output
  complaints : after.complaints = s.complaints

namespace Session.Undisturbed

variable {s s' s'' : Session}

theorem refl (s : Session) : s.Undisturbed s := ⟨rfl, rfl, rfl⟩

theorem trans (h : s.Undisturbed s') (h' : s'.Undisturbed s'') : s.Undisturbed s'' where
  files := h'.files.trans h.files
  output := h'.output.trans h.output
  complaints := h'.complaints.trans h.complaints

end Session.Undisturbed

/-- After a failure nothing more is done. -/
theorem run_bind {α β : Type} (x : ExceptT RunError SessionM α)
    (f : α → ExceptT RunError SessionM β) (s : Session) :
    (∃ e after, x.run.run s = (.error e, after) ∧ (x >>= f).run.run s = (.error e, after)) ∨
    ∃ a after, x.run.run s = (.ok a, after) ∧ (x >>= f).run.run s = (f a).run.run after := by
  have hbind : (x >>= f).run.run s = (ExceptT.bindCont f (x.run.run s).1).run (x.run.run s).2 := rfl
  rw [hbind]
  rcases x.run.run s with ⟨e | a, after⟩
  · exact .inl ⟨e, after, rfl, rfl⟩
  · exact .inr ⟨a, after, rfl, rfl⟩

/-! ## Computations that write nothing -/

/-- The computation writes nothing, whatever the session. -/
def Quiet {α : Type} (x : SessionM α) : Prop := ∀ s : Session, s.Undisturbed (x.run s).2

namespace Quiet

variable {α β ε : Type}

theorem pure (a : α) : Quiet (Pure.pure a) := fun s => .refl s

/-- If two computations write nothing, neither do they one after the other. -/
theorem bind {x : SessionM α} {f : α → SessionM β} (hx : Quiet x) (hf : ∀ a, Quiet (f a)) :
    Quiet (x >>= f) := by
  intro s
  show s.Undisturbed ((f (x.run s).1).run (x.run s).2).2
  exact (hx s).trans (hf _ _)

/-- The same of computations that can fail. -/
theorem exceptBind {x : ExceptT ε SessionM α} {f : α → ExceptT ε SessionM β} (hx : Quiet x.run)
    (hf : ∀ a, Quiet (f a).run) : Quiet (x >>= f).run := by
  show Quiet (x.run >>= ExceptT.bindCont f)
  apply Quiet.bind hx
  intro result
  cases result with
  | error e => exact .pure _
  | ok a => exact hf a

theorem lift {x : SessionM α} (hx : Quiet x) : Quiet (ExceptT.lift x : ExceptT ε SessionM α).run :=
  hx.bind fun _ => .pure _

theorem readText (path : String) : Quiet (Files.FileAccess.readText path) := fun s => .refl s

theorem environment (name : String) : Quiet (Console.environment name) := fun s => .refl s

theorem isTerminal : Quiet Console.isTerminal := fun s => .refl s

/-- Standard input is read, or cannot be. -/
theorem input : Quiet Console.input := by
  intro s
  obtain ⟨_, input, _, _, _, _, _, _, _⟩ := s
  cases input with
  | none => exact .refl _
  | some text => exact .refl _

theorem directory : Quiet Console.directory := fun s => .refl s

/-- Reading the clock moves it on, and that is all. -/
theorem now : Quiet Console.now := by
  intro s
  show s.Undisturbed s.tick
  unfold Session.tick
  split
  · exact .refl s
  · exact ⟨rfl, rfl, rfl⟩

theorem request (token url : String) : Quiet (Hosting.Service.request token url) := fun s => .refl s

end Quiet

/-- The computation writes nothing, and it does not fail for the reason that an output cannot be
written. -/
structure OnlyReads {α : Type} (x : ExceptT RunError SessionM α) : Prop where
  quiet : Quiet x.run
  error : ∀ (s : Session) (e : RunError), (x.run.run s).1 = .error e → e.isOutputFailure = false

namespace OnlyReads

variable {α β ε : Type}

theorem pure (a : α) : OnlyReads (Pure.pure a) where
  quiet := .pure _
  error := by
    intro s e h
    cases h

/-- To fail for another reason is no failure of an output. -/
theorem throw {cause : RunError} (h : cause.isOutputFailure = false) :
    OnlyReads (throw cause : ExceptT RunError SessionM α) where
  quiet := .pure _
  error := by
    intro s e he
    cases he
    exact h

theorem lift {x : SessionM α} (hx : Quiet x) : OnlyReads (ExceptT.lift x) where
  quiet := hx.lift
  error := by
    intro s e h
    cases h

/-- A result that is there already is passed on, or its error for a reason that is no output's. -/
theorem attempt (result : Except ε α) {cause : ε → RunError}
    (h : ∀ e, (cause e).isOutputFailure = false) : OnlyReads (attempt result cause) := by
  cases result with
  | ok a => exact .pure a
  | error e => exact .throw (h e)

/-- What only reads, and goes on with what only reads, only reads. -/
theorem bind {x : ExceptT RunError SessionM α} {f : α → ExceptT RunError SessionM β}
    (hx : OnlyReads x) (hf : ∀ a, OnlyReads (f a)) : OnlyReads (x >>= f) where
  quiet := hx.quiet.exceptBind fun a => (hf a).quiet
  error := by
    intro s e h
    rcases run_bind x f s with ⟨reason, after, hfirst, hrun⟩ | ⟨a, after, hfirst, hrun⟩
    · rw [hrun] at h
      cases h
      apply hx.error s
      rw [hfirst]
    · rw [hrun] at h
      exact (hf a).error after e h

end OnlyReads

/-! ## Settings and tables -/

/-- A settings file is read and parsed. -/
theorem quiet_load (path : String) : Quiet (Settings.load path) := by
  apply Quiet.bind (.readText path)
  intro result
  cases result with
  | ok text => exact .pure _
  | error cause => exact .pure _

/-- The search for settings reads one file after the other. -/
theorem quiet_discoverIn (directories : List String) : Quiet (Settings.discoverIn directories) := by
  induction directories with
  | nil => exact .pure _
  | cons directory directories ih =>
    apply Quiet.bind (quiet_load _)
    intro result
    cases result with
    | ok settings => exact .pure _
    | error cause => exact ih

theorem quiet_loadTable (path : String) : Quiet (Table.readFile (m := SessionM) path).run := by
  apply Quiet.exceptBind (Quiet.lift (.readText path))
  intro result
  cases result with
  | ok text => exact .pure _
  | error cause => exact .pure _

/-- Three files are read, as long as none of them fails. -/
theorem quiet_loadTables (paths : Table.Paths) (format : Table.Format) :
    Quiet (Table.load paths format) := by
  unfold Table.load
  apply Quiet.exceptBind (quiet_loadTable _)
  intro methods
  apply Quiet.exceptBind (.pure _)
  intro methods
  apply Quiet.exceptBind (quiet_loadTable _)
  intro tests
  apply Quiet.exceptBind (.pure _)
  intro tests
  apply Quiet.exceptBind (quiet_loadTable _)
  intro coverage
  apply Quiet.exceptBind (.pure _)
  intro coverage
  exact .pure _

/-- Settings are read from the file that is named, or searched for. -/
theorem onlyReads_loadSettings (o : AnalysisOptions) : OnlyReads (loadSettings o) := by
  unfold loadSettings
  split
  · next path _ =>
    apply OnlyReads.bind (.lift (quiet_load path))
    intro loaded
    apply OnlyReads.bind (.attempt loaded fun _ => rfl)
    intro settings
    exact .pure _
  · apply OnlyReads.bind
    · exact .lift (Quiet.directory.bind fun start => quiet_discoverIn _)
    · intro found
      exact .pure _

/-- A plan is made of settings that are read. -/
theorem onlyReads_planOf (o : AnalysisOptions) (apiUrl : Option String) :
    OnlyReads (planOf o apiUrl) := by
  apply OnlyReads.bind
  · apply OnlyReads.bind (onlyReads_loadSettings o)
    intro settings
    exact .attempt _ fun _ => rfl
  · intro settings
    apply OnlyReads.bind (.attempt _ fun _ => rfl)
    intro tables
    exact .pure _

/-! ## Analyses -/

theorem Plan.quiet_loadTables (plan : Plan) : Quiet plan.loadTables := by
  unfold Plan.loadTables
  split
  · exact .pure _
  · exact (CommandLine.quiet_loadTables _ _).bind fun _ => .pure _

/-- An analysis reads the clock, its source and its tables. -/
theorem Plan.onlyReads_analyze (plan : Plan) {source : SessionM ChangeSource}
    (hsource : Quiet source) : OnlyReads (plan.analyze source) := by
  apply OnlyReads.bind (.lift .now)
  intro started
  apply OnlyReads.bind (.lift hsource)
  intro source
  apply OnlyReads.bind (.lift plan.quiet_loadTables)
  intro tables
  apply OnlyReads.bind (.lift .now)
  intro ended
  exact .attempt _ fun _ => rfl

theorem quiet_listingSource (path : String) : Quiet (listingSource path) := by
  apply Quiet.bind
  · apply Quiet.bind (.readText path)
    intro result
    cases result with
    | ok text => exact .pure _
    | error cause => exact .pure _
  · intro files
    exact .pure _

theorem quiet_fetchPage (client : Hosting.Client) (number page : Nat) :
    Quiet (Hosting.fetchPage client number page) := by
  apply Quiet.bind (.request _ _)
  intro result
  cases result with
  | error reason => exact .pure _
  | ok answer => exact .pure _

/-- The pages of a listing are requested one after the other. -/
theorem quiet_fetchPages (client : Hosting.Client) (number page bound : Nat) :
    Quiet (Hosting.fetchPages client number page bound) := by
  induction bound generalizing page with
  | zero => exact .pure _
  | succ bound ih =>
    apply Quiet.bind (quiet_fetchPage client number page)
    intro result
    cases result with
    | error e => exact .pure _
    | ok files =>
      show Quiet (if _ then _ else _)
      split
      · exact .pure _
      · apply Quiet.bind (ih (page + 1))
        intro more
        cases more with
        | error e => exact .pure _
        | ok more => exact .pure _

theorem quiet_serviceSource (client : Hosting.Client) (number : Nat) :
    Quiet (serviceSource client number) :=
  (quiet_fetchPages client number 1 Hosting.maxPages).bind fun _ => .pure _

/-- A variable is looked up only where nothing is given. -/
theorem quiet_orVariable (given : Option String) (name : String) :
    Quiet (orVariable given name) := by
  cases given with
  | some value => exact .pure _
  | none => exact .environment name

/-- Up to its outputs the command `check` only reads. -/
theorem onlyReads_check (number : Nat) (token repository apiUrl listing : Option String)
    (o : AnalysisOptions) : OnlyReads (check number token repository apiUrl listing o) := by
  apply OnlyReads.bind (.lift (quiet_orVariable token _))
  intro token
  apply OnlyReads.bind (.lift (quiet_orVariable repository _))
  intro repository
  apply OnlyReads.bind (onlyReads_planOf o apiUrl)
  intro plan
  cases listing with
  | some path => exact Plan.onlyReads_analyze _ (quiet_listingSource path)
  | none =>
    dsimp only
    split
    · exact .throw rfl
    · exact .throw rfl
    · apply OnlyReads.bind (.attempt _ fun _ => rfl)
      intro client
      exact Plan.onlyReads_analyze _ (quiet_serviceSource client number)

/-- A diff is read from its file or from standard input. -/
theorem onlyReads_readDiff (path : Option String) : OnlyReads (readDiff path) := by
  unfold readDiff
  split
  · next path _ =>
    apply OnlyReads.bind (.lift (.readText path))
    intro text
    exact .attempt text fun _ => rfl
  · apply OnlyReads.bind (.lift .isTerminal)
    intro terminal
    cases terminal with
    | true => exact .throw rfl
    | false =>
      apply OnlyReads.bind (.lift .input)
      intro input
      apply OnlyReads.bind (.attempt input fun _ => rfl)
      intro text
      split
      · exact .throw rfl
      · exact .pure text

/-- Up to its outputs the command `detect` only reads. -/
theorem onlyReads_detect (path : Option String) (o : AnalysisOptions) :
    OnlyReads (detect path o) := by
  apply OnlyReads.bind (onlyReads_planOf o none)
  intro plan
  apply OnlyReads.bind (onlyReads_readDiff path)
  intro text
  apply OnlyReads.bind (.attempt _ fun _ => rfl)
  intro files
  exact Plan.onlyReads_analyze _ (.pure _)

end TestImpact.CommandLine
