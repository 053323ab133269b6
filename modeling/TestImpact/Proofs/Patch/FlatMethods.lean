import TestImpact.Proofs.Patch.Order

/-!
# Flat methods

The two ways to follow a span part on nested code, but not on flat one: on methods that open their
only brace at the signature, are indented below it, and close with a brace alone on its line. A span
that goes by braces may even stay open behind such a method, if the two braces stand on different
sides of the change. It does no harm there, for up to the next signature there is nothing to edit
(`Detector.step_gap`); and between the braces both spans hold every edit (`Detector.run_body`). So a
flat patch touches the methods whose lines it edits, whichever way is taken
(`spanModes_agree_on_flat`).
-/

namespace TestImpact.Patch

/-! ## Flat patches -/

/-- A line of the body of a method with the given signature, which opens and closes nothing. -/
structure IsBodyLine (matcher : SignatureMatcher) (signature l : Line) : Prop where
  source : l.kind.IsSource
  unnamed : matcher l.content = none
  no_open : '{' ∉ l.content
  no_close : '}' ∉ l.content
  deeper : l.isSubstantive = true → indentWidth signature.content < indentWidth l.content

/-- A method whose signature opens a brace that is closed alone on its line. -/
structure FlatMethod (matcher : SignatureMatcher) where
  name : String
  signature : Line
  body : List Line
  closing : Line
  signature_source : signature.kind.IsSource
  signature_named : matcher signature.content = some name
  opens_once : signature.content.count '{' = 1
  not_closed : '}' ∉ signature.content
  body_flat : ∀ l ∈ body, IsBodyLine matcher signature l
  closing_source : closing.kind.IsSource
  closing_unnamed : matcher closing.content = none
  closing_brace : Text.trim closing.content = ['}']

/-- The lines of the method. -/
def FlatMethod.lines {matcher : SignatureMatcher} (m : FlatMethod matcher) : List Line :=
  m.signature :: m.body ++ [m.closing]

/-- Whether the method is edited: in its body or, where that counts, at its signature. -/
def FlatMethod.IsEdited {matcher : SignatureMatcher} (m : FlatMethod matcher) (counted : Bool) :
    Prop :=
  (∃ l ∈ m.body, l.isEdit = true) ∨ counted = true ∧ m.signature.isEdit = true

/-- A line between methods: metadata, the header of a hunk whose heading names no method, or a line
of context that declares none. -/
def IsGap (matcher : SignatureMatcher) (l : Line) : Prop :=
  l.kind = .metadata ∨ (l.kind = .hunkHeader ∨ l.kind = .context) ∧ matcher l.content = none

/-- A part of a flat patch. -/
inductive FlatPart (matcher : SignatureMatcher)
  | gap (l : Line) (h : IsGap matcher l)
  | method (m : FlatMethod matcher)

/-- The lines of the part. -/
def FlatPart.lines {matcher : SignatureMatcher} : FlatPart matcher → List Line
  | .gap l _ => [l]
  | .method m => m.lines

/-! ## Spans of flat methods -/

/-- Whether a brace is open on a side. -/
def Depth.IsOpen (d : Depth) : Prop := 0 < d.depth ∧ d.entered = true

/-- A span of a method with the given signature that holds the body of the method. -/
inductive Span.Holds (signature : Line) : SpanMode → Span → Prop
  | braces {old new} : old.IsOpen ∨ new.IsOpen → Holds signature .braces (.braces old new)
  | indentation : Holds signature .indentation (.indentation (indentWidth signature.content))

theorem Depth.IsOpen.isSettled_eq {d : Depth} (h : d.IsOpen) : d.isSettled = false := by
  simp [Depth.isSettled, h.1, h.2]

theorem Depth.IsOpen.add_zero {d : Depth} (h : d.IsOpen) : (d.add 0).IsOpen := by
  simp [Depth.IsOpen, Depth.add, h.1, h.2]

theorem Depth.isOpen_add_one : (({} : Depth).add 1).IsOpen := by
  simp [Depth.IsOpen, Depth.add]

section Spans

variable {matcher : SignatureMatcher} {signature l : Line} {mode : SpanMode} {span : Span}

/-- A span that goes by braces does not end while a brace is open on a side. -/
theorem Span.exists_next?_braces {old new : Depth} (old' new' : Depth)
    (hobserve : (Span.braces old new).observe l = .braces old' new')
    (hopen : old'.IsOpen ∨ new'.IsOpen) :
    ∃ span', (Span.braces old new).next? l = some span' ∧ span'.Holds signature .braces := by
  refine ⟨.braces old' new', ?_, .braces hopen⟩
  have hclosed : (Span.braces old' new').isClosed l = false := by
    rcases hopen with h | h <;> simp [Span.isClosed, h.isSettled_eq]
  simp only [Span.next?, hobserve, hclosed]
  rfl

/-- The signature opens a span that holds the body. -/
theorem FlatMethod.exists_open? (m : FlatMethod matcher) (mode : SpanMode) :
    ∃ span, Span.open? mode m.signature = some span ∧ span.Holds m.signature mode := by
  cases mode with
  | indentation => exact ⟨_, rfl, .indentation⟩
  | braces =>
    have hdelta : braceDelta m.signature.content = 1 := by
      rw [braceDelta, m.opens_once, List.count_eq_zero_of_not_mem m.not_closed]
      rfl
    show ∃ span, (Span.braces {} {}).next? m.signature = some span ∧ _
    -- the brace is open on the sides on which the signature stands
    rcases m.signature_source with hk | hk | hk
    · apply Span.exists_next?_braces {} (({} : Depth).add 1)
      · simp [Span.observe, hk, hdelta]
      · exact .inr Depth.isOpen_add_one
    · apply Span.exists_next?_braces (({} : Depth).add 1) {}
      · simp [Span.observe, hk, hdelta]
      · exact .inl Depth.isOpen_add_one
    · apply Span.exists_next?_braces (({} : Depth).add 1) (({} : Depth).add 1)
      · simp [Span.observe, hk, hdelta]
      · exact .inl Depth.isOpen_add_one

/-- A line of the body leaves the span open. -/
theorem IsBodyLine.exists_next? (h : IsBodyLine matcher signature l)
    (hspan : span.Holds signature mode) :
    ∃ span', span.next? l = some span' ∧ span'.Holds signature mode := by
  cases hspan with
  | indentation =>
    have hopen : Text.trim l.content ≠ ['}'] := by
      intro htrim
      have hmem : '}' ∈ Text.trim l.content := by simp [htrim]
      exact h.no_close (Text.mem_of_mem_trim hmem)
    refine ⟨_, ?_, .indentation⟩
    simp [Span.next?, Span.observe, Span.isClosed, hopen]
  | @braces old new hopen =>
    have hdelta : braceDelta l.content = 0 := braceDelta_eq_zero h.no_open h.no_close
    rcases h.source with hk | hk | hk
    · apply Span.exists_next?_braces old (new.add 0)
      · simp [Span.observe, hk, hdelta]
      · exact hopen.imp_right Depth.IsOpen.add_zero
    · apply Span.exists_next?_braces (old.add 0) new
      · simp [Span.observe, hk, hdelta]
      · exact hopen.imp_left Depth.IsOpen.add_zero
    · apply Span.exists_next?_braces (old.add 0) (new.add 0)
      · simp [Span.observe, hk, hdelta]
      · exact hopen.imp Depth.IsOpen.add_zero Depth.IsOpen.add_zero

/-- Every edit of the body lies inside the span. -/
theorem IsBodyLine.contains (h : IsBodyLine matcher signature l) (hspan : span.Holds signature mode)
    (hedit : l.isEdit = true) : span.contains l = true := by
  cases hspan with
  | indentation =>
    have hsubstantive : l.isSubstantive = true := (Bool.and_eq_true_iff.mp hedit).2
    rw [Span.contains, decide_eq_true_eq]
    exact h.deeper hsubstantive
  | braces hopen =>
    rcases hopen with hopen | hopen <;> simp [Span.contains, hopen.1]

end Spans

/-! ## Walks over flat patches -/

namespace Detector

variable {d : Detector} {scan : Scan} {l : Line}

/-- The detector with another way to follow spans. -/
def withMode (d : Detector) (mode : SpanMode) : Detector :=
  { d with options := { d.options with spanMode := mode } }

/-- Whether no span is open that would be followed by its indentation. A span that is followed by
its braces may be open between methods. -/
def IsIdle (d : Detector) (scan : Scan) : Prop :=
  d.options.spanMode = .indentation → scan.current = none

theorem not_resets_of_unnamed (hsource : l.kind.IsSource) (hunnamed : d.matcher l.content = none) :
    ¬ d.Resets l := by
  rintro (⟨m, -, hm⟩ | hk)
  · rw [hunnamed] at hm
    cases hm
  · exact hsource.ne_hunkHeader hk

/-- A line that is no edit touches nothing. -/
theorem mem_touched_step_of_not_isEdit (hedit : l.isEdit = false) (m : String) :
    m ∈ (d.step scan l).touched ↔ m ∈ scan.touched := by
  have hno : ¬ d.Touches scan m l := by
    rintro (⟨-, hyes, -⟩ | ⟨-, hyes, -⟩) <;> simp [hedit] at hyes
  rw [mem_touched_step, or_iff_left hno]

/-- A line without a method leaves the walk idle. -/
theorem IsIdle.step (h : d.IsIdle scan) (hunnamed : d.matcher l.content = none) :
    d.IsIdle (d.step scan l) := by
  intro hmode
  have hnone := h hmode
  rcases d.step_cases scan l with ⟨-, he⟩ | ⟨-, -, he⟩ | ⟨m, -, hm, -⟩ | ⟨m, -, hm, -⟩ | ⟨-, -, he⟩
  · rw [he, hnone]
  · rw [he]
  · simp [hunnamed] at hm
  · simp [hunnamed] at hm
  · rw [he, stepBody, hnone]
    exact hnone

/-- Lines between methods touch nothing. -/
theorem step_gap (hgap : IsGap d.matcher l) (hidle : d.IsIdle scan) :
    d.IsIdle (d.step scan l) ∧ ∀ m, m ∈ (d.step scan l).touched ↔ m ∈ scan.touched := by
  constructor
  · rcases hgap with hk | ⟨-, hunnamed⟩
    · have hsame : d.step scan l = scan := by simp [Detector.step, hk]
      rwa [hsame]
    · exact hidle.step hunnamed
  · have hedit : l.isEdit = false := by
      rcases hgap with hk | ⟨hk | hk, -⟩ <;> simp [Line.isEdit, hk, Kind.isChange]
    exact mem_touched_step_of_not_isEdit hedit

/-- In the body of a flat method the span stays open, and each edit touches the method. -/
theorem run_body {name : String} {signature : Line} {ls : List Line}
    (hls : ∀ l ∈ ls, IsBodyLine d.matcher signature l) {span : Span}
    (hcurrent : scan.current = some (name, span))
    (hspan : span.Holds signature d.options.spanMode) :
    (∃ span', (d.run scan ls).current = some (name, span') ∧
        span'.Holds signature d.options.spanMode) ∧
      ∀ m, m ∈ (d.run scan ls).touched ↔
        m ∈ scan.touched ∨ m = name ∧ ∃ l ∈ ls, l.isEdit = true := by
  -- along the body: the span changes from line to line, and stays that of the method
  induction ls generalizing scan span with
  | nil => exact ⟨⟨span, hcurrent, hspan⟩, by simp [run]⟩
  | cons l ls ih =>
    have hl := hls l List.mem_cons_self
    have hresets : ¬ d.Resets l := not_resets_of_unnamed hl.source hl.unnamed
    obtain ⟨span', hnext, hspan'⟩ := hl.exists_next? hspan
    have hcurrent' : (d.step scan l).current = some (name, span') := by
      rw [current_step_of_not_resets hl.source.ne_metadata hresets, hcurrent]
      simp [hnext]
    have htouches : ∀ m, d.Touches scan m l ↔ m = name ∧ l.isEdit = true := by
      intro m
      constructor
      · rintro (⟨-, -, hm⟩ | ⟨-, hedit, _, hm, -⟩)
        · rw [hl.unnamed] at hm
          cases hm
        · rw [hcurrent] at hm
          cases hm
          exact ⟨rfl, hedit⟩
      · rintro ⟨rfl, hedit⟩
        exact .inr ⟨hresets, hedit, span, hcurrent, hl.contains hspan hedit⟩
    obtain ⟨hopen, htouched⟩ :=
      ih (fun l' h => hls l' (List.mem_cons_of_mem _ h)) hcurrent' hspan'
    refine ⟨hopen, fun m => ?_⟩
    show m ∈ (d.run (d.step scan l) ls).touched ↔ _
    simp only [htouched, mem_touched_step, htouches, List.exists_mem_cons_iff, or_assoc,
      ← and_or_left]

/-- Behind the line that closes a flat method the walk is idle again. -/
theorem isIdle_closing (m : FlatMethod d.matcher) {span : Span}
    (hcurrent : scan.current = some (m.name, span))
    (hspan : span.Holds m.signature d.options.spanMode) : d.IsIdle (d.step scan m.closing) := by
  intro hmode
  rw [hmode] at hspan
  cases hspan
  have hresets := not_resets_of_unnamed m.closing_source m.closing_unnamed
  rw [current_step_of_not_resets m.closing_source.ne_metadata hresets, hcurrent]
  simp [Span.next?, Span.observe, Span.isClosed, m.closing_brace]

/-- A flat method is touched if it is edited, and it leaves no other trace. -/
theorem run_method (m : FlatMethod d.matcher) (scan : Scan) :
    d.IsIdle (d.run scan m.lines) ∧
      ∀ n, n ∈ (d.run scan m.lines).touched ↔
        n ∈ scan.touched ∨ n = m.name ∧ m.IsEdited d.options.countSignatureEdits := by
  obtain ⟨span, hopen, hspan⟩ := m.exists_open? d.options.spanMode
  have hresets : d.Resets m.signature :=
    .inl ⟨m.name, m.signature_source.ne_metadata, m.signature_named⟩
  have hcurrent : (d.step scan m.signature).current = some (m.name, span) := by
    rw [current_step_of_resets hresets, m.signature_named,
      Line.asSignature_of_isSource m.signature_source]
    simp [hopen]
  have hsignature : ∀ n, d.Touches scan n m.signature ↔
      n = m.name ∧ d.options.countSignatureEdits = true ∧ m.signature.isEdit = true := by
    intro n
    simp only [Touches, EditsSignature, hresets, not_true_eq_false, false_and, or_false,
      m.signature_named, Option.some.injEq]
    constructor
    · rintro ⟨hcount, hedit, hname⟩
      exact ⟨hname.symm, hcount, hedit⟩
    · rintro ⟨hname, hcount, hedit⟩
      exact ⟨hcount, hedit, hname.symm⟩
  obtain ⟨⟨span', hcurrent', hspan'⟩, htouched⟩ := run_body m.body_flat hcurrent hspan
  -- a lone brace is no edit, whatever its marker says
  have hclosing : m.closing.isEdit = false := by
    simp [Line.isEdit, Line.isSubstantive, m.closing_brace]
  have hrun : d.run scan m.lines =
      d.step (d.run (d.step scan m.signature) m.body) m.closing := by
    rw [FlatMethod.lines, run_append_singleton]
    rfl
  rw [hrun]
  refine ⟨isIdle_closing m hcurrent' hspan', fun n => ?_⟩
  rw [mem_touched_step_of_not_isEdit hclosing, htouched, mem_touched_step, hsignature,
    FlatMethod.IsEdited, or_assoc, ← and_or_left, or_comm (a := _ ∧ _)]

/-- A flat patch touches the methods that it edits, in whatever way spans are followed. -/
theorem run_flat (parts : List (FlatPart d.matcher)) (hidle : d.IsIdle scan) (n : String) :
    n ∈ (d.run scan (parts.flatMap FlatPart.lines)).touched ↔
      n ∈ scan.touched ∨ ∃ m, .method m ∈ parts ∧ n = m.name ∧
        m.IsEdited d.options.countSignatureEdits := by
  -- part by part: a method leaves no span behind, so the next part begins as the patch does
  induction parts generalizing scan with
  | nil => simp [run]
  | cons part parts ih =>
    rw [List.flatMap_cons, run_append]
    cases part with
    | gap l hgap =>
      obtain ⟨hidle', htouched⟩ := step_gap hgap hidle
      show n ∈ (d.run (d.step scan l) _).touched ↔ _
      rw [ih hidle', htouched]
      simp
    | method m =>
      obtain ⟨hidle', htouched⟩ := run_method m scan
      show n ∈ (d.run (d.run scan m.lines) _).touched ↔ _
      rw [ih hidle', htouched]
      simp only [List.mem_cons, FlatPart.method.injEq]
      constructor
      · rintro ((hold | hm) | ⟨m', hm', hrest⟩)
        · exact .inl hold
        · exact .inr ⟨m, .inl rfl, hm⟩
        · exact .inr ⟨m', .inr hm', hrest⟩
      · rintro (hold | ⟨m', rfl | hm', hrest⟩)
        · exact .inl (.inl hold)
        · exact .inl (.inr hrest)
        · exact .inr ⟨m', hm', hrest⟩

/-! ## The methods met -/

/-- Which methods a walk meets, and in which order, is for the matcher alone to say. -/
theorem opened_step_congr {d' : Detector} (hmatcher : d.matcher = d'.matcher) {scan' : Scan}
    (h : scan.opened = scan'.opened) (l : Line) :
    (d.step scan l).opened = (d'.step scan' l).opened := by
  cases hn : d.matcher l.content with
  | none =>
    have hn' : d'.matcher l.content = none := hmatcher ▸ hn
    cases hk : l.kind <;> simp [step, stepHeader, hk, hn, hn', opened_stepBody, h]
  | some m =>
    have hn' : d'.matcher l.content = some m := hmatcher ▸ hn
    cases hk : l.kind <;>
      simp [step, stepHeader, hk, hn, hn', opened_stepSignature, Scan.openMethod, h]

theorem opened_run_congr {d' : Detector} (hmatcher : d.matcher = d'.matcher) {scan' : Scan}
    (h : scan.opened = scan'.opened) (ls : List Line) :
    (d.run scan ls).opened = (d'.run scan' ls).opened := by
  induction ls generalizing scan scan' with
  | nil => exact h
  | cons l ls ih => exact ih (opened_step_congr hmatcher h l)

end Detector

/-- **The two ways to follow spans agree on flat patches**: both report the same methods in the same
order, namely those that are edited. -/
theorem spanModes_agree_on_flat (d : Detector) {parts : List (FlatPart d.matcher)}
    {patch : List Char} (hpatch : linesOf patch = parts.flatMap FlatPart.lines) :
    (d.withMode .braces).touchedMethods patch = (d.withMode .indentation).touchedMethods patch ∧
    ∀ mode n, n ∈ (d.withMode mode).touchedMethods patch ↔
      ∃ m, .method m ∈ parts ∧ n = m.name ∧ m.IsEdited d.options.countSignatureEdits := by
  have htouched : ∀ mode n, n ∈ ((d.withMode mode).run {} (linesOf patch)).touched ↔
      ∃ m, .method m ∈ parts ∧ n = m.name ∧ m.IsEdited d.options.countSignatureEdits := by
    intro mode n
    have hidle : (d.withMode mode).IsIdle {} := fun _ => rfl
    rw [hpatch]
    exact (Detector.run_flat (d := d.withMode mode) parts hidle n).trans
      (or_iff_right List.not_mem_nil)
  have hopened : ((d.withMode .braces).run {} (linesOf patch)).opened =
      ((d.withMode .indentation).run {} (linesOf patch)).opened :=
    Detector.opened_run_congr (by rfl) (by rfl) _
  constructor
  · rw [Detector.touchedMethods, Detector.touchedMethods, Scan.result, Scan.result, hopened]
    apply List.filter_congr
    intro n _
    rw [Bool.eq_iff_iff, List.contains_iff_mem, List.contains_iff_mem, htouched, htouched]
  · intro mode n
    rw [Detector.mem_touchedMethods]
    exact htouched mode n

/-- A method that is new but for its closing brace, which is another one than before. -/
def startMethod : FlatMethod startOrStop where
  name := "start"
  signature := ⟨.added, "void start() \x7B".toList⟩
  body := [⟨.added, "  begin();".toList⟩]
  closing := ⟨.removed, "\x7D".toList⟩
  signature_source := .inl rfl
  signature_named := by decide
  opens_once := by decide
  not_closed := by decide
  body_flat := by
    intro l hl
    obtain rfl := List.mem_singleton.mp hl
    exact ⟨.inl rfl, by decide, by decide, by decide, by decide⟩
  closing_source := .inr (.inl rfl)
  closing_unnamed := by decide
  closing_brace := by decide

/-- A method that stays as it is. -/
def stopMethod : FlatMethod startOrStop where
  name := "stop"
  signature := ⟨.context, "void stop() \x7B".toList⟩
  body := []
  closing := ⟨.context, "\x7D".toList⟩
  signature_source := .inr (.inr rfl)
  signature_named := by decide
  opens_once := by decide
  not_closed := by decide
  body_flat := by simp
  closing_source := .inr (.inr rfl)
  closing_unnamed := by decide
  closing_brace := by decide

/-- A hunk with both methods and a line between them. -/
def flatHunk : List (FlatPart startOrStop) :=
  [.gap ⟨.hunkHeader, []⟩ (.inr ⟨.inl rfl, by decide⟩), .method startMethod,
    .gap ⟨.context, "// goes on".toList⟩ (.inr ⟨.inr rfl, by decide⟩), .method stopMethod]

/-- The text of the hunk. -/
def flatHunkText : List Char :=
  ("@@ -1,4 +1,5 @@\n+void start() \x7B\n+  begin();\n-\x7D\n // goes on\n" ++
    " void stop() \x7B\n \x7D\n").toList

/-- By its braces the span of the first method is still open where the second one begins. -/
theorem spanModes_agree_on_flat_twoMethods :
    let d : Detector := { matcher := startOrStop }
    linesOf flatHunkText = flatHunk.flatMap FlatPart.lines ∧
    (d.withMode .braces).touchedMethods flatHunkText =
      (d.withMode .indentation).touchedMethods flatHunkText ∧
    (d.withMode .indentation).touchedMethods flatHunkText = ["start"] := by
  intro d
  have hlines : linesOf flatHunkText = flatHunk.flatMap FlatPart.lines := by decide
  exact ⟨hlines, (spanModes_agree_on_flat d hlines).1, by decide⟩

end TestImpact.Patch
