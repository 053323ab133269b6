import Mathlib.Data.List.Induction
import TestImpact.Patch.Detector
import TestImpact.Proofs.Patch.Balance

/-!
# Walks over a patch

What one line changes in a walk is said once (`Detector.step_cases`). From it follows what a whole
walk has found: the span that is open after some lines is the one opened by the last line that
opens or closes a span, followed over the lines since (`Detector.current_run`), and a method is
touched if some line has touched it at its place (`Detector.mem_touched_run`).
-/

namespace TestImpact.Patch

namespace Detector

variable (d : Detector)

/-- Whether a line opens the span of a method: it declares it, or it is the header of a hunk whose
heading does. -/
def Opens (m : String) (l : Line) : Prop := l.kind ≠ .metadata ∧ d.matcher l.content = some m

/-- Whether the span that is open before a line is given up there. -/
def Resets (l : Line) : Prop := (∃ m, d.Opens m l) ∨ l.kind = .hunkHeader

/-- Whether a line is an edit of the signature of a method, where such edits count. -/
def EditsSignature (m : String) (l : Line) : Prop :=
  d.options.countSignatureEdits = true ∧ l.isEdit = true ∧ d.matcher l.content = some m

end Detector

/-! ## One line -/

namespace Scan

@[simp] theorem touched_openMethod (scan : Scan) (mode : SpanMode) (m : String) (l : Line) :
    (scan.openMethod mode m l).touched = scan.touched := rfl

@[simp] theorem current_openMethod (scan : Scan) (mode : SpanMode) (m : String) (l : Line) :
    (scan.openMethod mode m l).current = (Span.open? mode l).map (m, ·) := rfl

/-- Opening a method lists it, unless it is listed already. -/
theorem opened_openMethod (scan : Scan) (mode : SpanMode) (m : String) (l : Line) :
    (scan.openMethod mode m l).opened = scan.opened ∨
      m ∉ scan.opened ∧ (scan.openMethod mode m l).opened = scan.opened ++ [m] := by
  by_cases h : m ∈ scan.opened
  · left
    simp [Scan.openMethod, h]
  · right
    simp [Scan.openMethod, h]

theorem mem_opened_openMethod {scan : Scan} {mode : SpanMode} {m n : String} {l : Line} :
    n ∈ (scan.openMethod mode m l).opened ↔ n ∈ scan.opened ∨ n = m := by
  simp only [Scan.openMethod]
  split
  · next h =>
    have hm : m ∈ scan.opened := by simpa using h
    exact ⟨.inl, fun h => h.elim id fun h => h ▸ hm⟩
  · simp

@[simp] theorem opened_touch (scan : Scan) (m : String) : (scan.touch m).opened = scan.opened := rfl

@[simp] theorem current_touch (scan : Scan) (m : String) :
    (scan.touch m).current = scan.current := rfl

theorem mem_touched_touch {scan : Scan} {m n : String} :
    n ∈ (scan.touch m).touched ↔ n ∈ scan.touched ∨ n = m := by
  simp only [Scan.touch]
  split
  · next h =>
    have hm : m ∈ scan.touched := by simpa using h
    exact ⟨.inl, fun h => h.elim id fun h => h ▸ hm⟩
  · simp [or_comm]

end Scan

namespace Detector

variable (d : Detector)

/-- All that one line can do. -/
theorem step_cases (scan : Scan) (l : Line) :
    (l.kind = .metadata ∧ d.step scan l = scan) ∨
    (l.kind = .hunkHeader ∧ d.matcher l.content = none ∧
      d.step scan l = { scan with current := none }) ∨
    (∃ m, l.kind = .hunkHeader ∧ d.matcher l.content = some m ∧
      d.step scan l = scan.openMethod d.options.spanMode m l.asSignature) ∨
    (∃ m, l.kind.IsSource ∧ d.matcher l.content = some m ∧
      d.step scan l = d.stepSignature scan m l) ∨
    (l.kind.IsSource ∧ d.matcher l.content = none ∧ d.step scan l = stepBody scan l) := by
  -- the kind decides first, for a signature counts only in headings and in source text
  by_cases hm : l.kind = .metadata
  · exact .inl ⟨hm, by simp [step, hm]⟩
  by_cases hh : l.kind = .hunkHeader
  · cases hn : d.matcher l.content with
    | none => exact .inr (.inl ⟨hh, rfl, by simp [step, stepHeader, hh, hn]⟩)
    | some m =>
      exact .inr (.inr (.inl ⟨m, hh, rfl, by simp [step, stepHeader, hh, hn, Line.asSignature]⟩))
  have hs : l.kind.IsSource := Kind.isSource_of_ne hm hh
  cases hn : d.matcher l.content with
  | none =>
    refine .inr (.inr (.inr (.inr ⟨hs, rfl, ?_⟩)))
    rcases hs with hk | hk | hk <;> simp [step, hk, hn]
  | some m =>
    refine .inr (.inr (.inr (.inl ⟨m, hs, rfl, ?_⟩)))
    rcases hs with hk | hk | hk <;> simp [step, hk, hn]

end Detector

namespace Detector

variable {d : Detector} {scan : Scan} {l : Line} {m : String}

theorem isSource_of_not_resets (hk : l.kind ≠ .metadata) (h : ¬ d.Resets l) : l.kind.IsSource :=
  Kind.isSource_of_ne hk fun hh => h (.inr hh)

theorem matcher_of_not_resets (hk : l.kind ≠ .metadata) (h : ¬ d.Resets l) :
    d.matcher l.content = none := by
  cases hn : d.matcher l.content with
  | none => rfl
  | some m => exact absurd (.inl ⟨m, hk, hn⟩) h

/-- At a line that resets the walk, nothing of the span before it is left. -/
theorem current_step_of_resets (h : d.Resets l) :
    (d.step scan l).current = (d.matcher l.content).bind fun m =>
      (Span.open? d.options.spanMode l.asSignature).map (m, ·) := by
  rcases d.step_cases scan l with ⟨hk, -⟩ | ⟨-, hn, he⟩ | ⟨m, -, hn, he⟩ | ⟨m, hs, hn, he⟩ |
      ⟨hs, hn, -⟩
  · rcases h with ⟨m, hm, -⟩ | hh
    · exact absurd hk hm
    · rw [hk] at hh; cases hh
  · rw [he, hn]; rfl
  · rw [he, hn]; rfl
  · rw [he, hn, stepSignature, Line.asSignature_of_isSource hs]
    simp only [Option.bind_some]
    split <;> simp
  · rcases h with ⟨m, -, hm⟩ | hh
    · rw [hn] at hm; cases hm
    · exact absurd hh hs.ne_hunkHeader

/-- Any other line is counted in the span before it. -/
theorem current_step_of_not_resets (hk : l.kind ≠ .metadata) (h : ¬ d.Resets l) :
    (d.step scan l).current = scan.current.bind fun p => (p.2.next? l).map (p.1, ·) := by
  have hs := isSource_of_not_resets hk h
  have hn := matcher_of_not_resets hk h
  rcases d.step_cases scan l with ⟨hm, -⟩ | ⟨hh, -⟩ | ⟨m, hh, -⟩ | ⟨m, -, hm, -⟩ | ⟨-, -, he⟩
  · exact absurd hm hk
  · exact absurd hh hs.ne_hunkHeader
  · exact absurd hh hs.ne_hunkHeader
  · rw [hn] at hm; cases hm
  · rw [he, stepBody]
    cases hc : scan.current with
    | none => simp [hc]
    | some p => rfl

theorem opened_stepSignature : (d.stepSignature scan m l).opened =
    (scan.openMethod d.options.spanMode m l).opened := by
  unfold stepSignature
  split
  · rfl
  · rfl

theorem opened_stepBody : (stepBody scan l).opened = scan.opened := by
  unfold stepBody
  split
  · rfl
  · split
    · rfl
    · rfl

/-- A line leaves the list of methods alone, or it adds the method that it opens to the end. -/
theorem opened_step (d : Detector) (scan : Scan) (l : Line) :
    (d.step scan l).opened = scan.opened ∨
      ∃ m, d.Opens m l ∧ m ∉ scan.opened ∧ (d.step scan l).opened = scan.opened ++ [m] := by
  rcases d.step_cases scan l with ⟨-, he⟩ | ⟨-, -, he⟩ | ⟨m, hk, hn, he⟩ | ⟨m, hs, hn, he⟩ |
      ⟨-, -, he⟩
  · left
    rw [he]
  · left
    rw [he]
  · have hopens : d.Opens m l := ⟨by simp [hk], hn⟩
    rw [he]
    rcases scan.opened_openMethod d.options.spanMode m l.asSignature with hsame | ⟨hnew, hadd⟩
    · exact .inl hsame
    · exact .inr ⟨m, hopens, hnew, hadd⟩
  · have hopens : d.Opens m l := ⟨hs.ne_metadata, hn⟩
    rw [he, opened_stepSignature]
    rcases scan.opened_openMethod d.options.spanMode m l with hsame | ⟨hnew, hadd⟩
    · exact .inl hsame
    · exact .inr ⟨m, hopens, hnew, hadd⟩
  · left
    rw [he, opened_stepBody]

theorem mem_opened_step : m ∈ (d.step scan l).opened ↔ m ∈ scan.opened ∨ d.Opens m l := by
  rcases d.step_cases scan l with ⟨hk, he⟩ | ⟨-, hn, he⟩ | ⟨n, hk, hn, he⟩ | ⟨n, hs, hn, he⟩ |
      ⟨-, hn, he⟩
  · simp [he, Opens, hk]
  · simp [he, Opens, hn]
  · rw [he, Scan.mem_opened_openMethod]
    simp [Opens, hk, hn, eq_comm]
  · rw [he, opened_stepSignature, Scan.mem_opened_openMethod]
    simp [Opens, hs.ne_metadata, hn, eq_comm]
  · simp [he, opened_stepBody, Opens, hn]

/-- Whether a line touches a method, `scan` being what the walk has found before it. -/
def Touches (d : Detector) (scan : Scan) (m : String) (l : Line) : Prop :=
  d.EditsSignature m l ∨
    ¬ d.Resets l ∧ l.isEdit = true ∧
      ∃ span, scan.current = some (m, span) ∧ span.contains l = true

theorem not_touches_of_hunkHeader (hk : l.kind = .hunkHeader) (scan : Scan) :
    ¬ d.Touches scan m l := by
  rintro (⟨-, he, -⟩ | ⟨hr, -⟩)
  · rcases Line.isSource_of_isEdit he with h | h <;> simp [hk] at h
  · exact hr (.inr hk)

/-- A line of a body touches the open method if it is an edit inside its span. -/
theorem mem_touched_stepBody : m ∈ (stepBody scan l).touched ↔
    m ∈ scan.touched ∨
      l.isEdit = true ∧ ∃ span, scan.current = some (m, span) ∧ span.contains l = true := by
  simp only [stepBody]
  cases hc : scan.current with
  | none => simp
  | some p =>
    obtain ⟨n, span⟩ := p
    simp only
    split
    · next h =>
      obtain ⟨hedit, hcont⟩ : l.isEdit = true ∧ span.contains l = true := by simpa using h
      rw [Scan.mem_touched_touch]
      constructor
      · rintro (h | rfl)
        · exact .inl h
        · exact .inr ⟨hedit, span, rfl, hcont⟩
      · rintro (h | ⟨-, s, hs, -⟩)
        · exact .inl h
        · cases hs
          exact .inr rfl
    · next h =>
      have hno : ¬ (l.isEdit = true ∧ span.contains l = true) := by simpa using h
      refine ⟨.inl, fun h => h.elim id ?_⟩
      rintro ⟨he, s, hs, hcont⟩
      cases hs
      exact absurd ⟨he, hcont⟩ hno

/-- A line touches the methods that it is said to touch, and no others. -/
theorem mem_touched_step :
    m ∈ (d.step scan l).touched ↔ m ∈ scan.touched ∨ d.Touches scan m l := by
  rcases d.step_cases scan l with ⟨hk, he⟩ | ⟨hk, -, he⟩ | ⟨n, hk, -, he⟩ | ⟨n, hs, hn, he⟩ |
      ⟨hs, hn, he⟩
  · have hno : l.isEdit = false := by simp [Line.isEdit, hk, Kind.isChange]
    simp [he, Touches, EditsSignature, hno]
  · simp [he, not_touches_of_hunkHeader hk]
  · simp [he, not_touches_of_hunkHeader hk]
  · have hr : d.Resets l := .inl ⟨n, hs.ne_metadata, hn⟩
    rw [he, stepSignature]
    simp only [Touches, EditsSignature, hr, not_true_eq_false, false_and, or_false]
    by_cases hc : d.options.countSignatureEdits = true ∧ l.isEdit = true
    · simp [hc.1, hc.2, Scan.mem_touched_touch, hn, eq_comm]
    · rw [if_neg (by simpa using hc)]
      simp only [Scan.touched_openMethod, iff_self_or]
      exact fun h => absurd ⟨h.1, h.2.1⟩ hc
  · have hr : ¬ d.Resets l := by
      rintro (⟨n, -, h⟩ | h)
      · rw [hn] at h; cases h
      · exact hs.ne_hunkHeader h
    rw [he, mem_touched_stepBody]
    simp [Touches, EditsSignature, hr, hn]

/-! ## Whole walks -/

/-- A run over two lists of lines is a run over the second after the first. -/
theorem run_append (d : Detector) (scan : Scan) (ls ls' : List Line) :
    d.run scan (ls ++ ls') = d.run (d.run scan ls) ls' := by
  simp [run]

theorem run_append_singleton (d : Detector) (scan : Scan) (ls : List Line) (l : Line) :
    d.run scan (ls ++ [l]) = d.step (d.run scan ls) l := by
  simp [run]

/-- Metadata say nothing. -/
theorem run_filter_metadata (d : Detector) (scan : Scan) (ls : List Line) :
    d.run scan (ls.filter (·.kind ≠ .metadata)) = d.run scan ls := by
  induction ls generalizing scan with
  | nil => rfl
  | cons l ls ih =>
    by_cases hk : l.kind = .metadata
    · have hstep : d.step scan l = scan := by simp [step, hk]
      rw [List.filter_cons_of_neg (by simp [hk]), ih]
      simp [run, hstep]
    · rw [List.filter_cons_of_pos (by simp [hk])]
      exact ih (d.step scan l)

/-- A method has been met by a walk if one of the lines opens its span. -/
theorem mem_opened_run {ls : List Line} :
    m ∈ (d.run {} ls).opened ↔ ∃ l ∈ ls, d.Opens m l := by
  induction ls using List.reverseRecOn with
  | nil => simp [run]
  | append_singleton ls l ih =>
    rw [run_append_singleton, mem_opened_step, ih]
    simp only [List.mem_append, List.mem_singleton, or_and_right, exists_or, exists_eq_left]

/-- A method is touched by a walk if one of the lines touches it at its place. -/
theorem mem_touched_run {ls : List Line} :
    m ∈ (d.run {} ls).touched ↔
      ∃ before l after, ls = before ++ l :: after ∧ d.Touches (d.run {} before) m l := by
  induction ls using List.reverseRecOn with
  | nil => simp [run]
  | append_singleton ls e ih =>
    rw [run_append_singleton, mem_touched_step, ih]
    constructor
    · rintro (⟨before, l, after, rfl, h⟩ | h)
      · exact ⟨before, l, after ++ [e], by simp, h⟩
      · exact ⟨ls, e, [], rfl, h⟩
    · rintro ⟨before, l, after, heq, h⟩
      rcases concat_eq_append_cons heq with ⟨rfl, rfl, rfl⟩ | ⟨init, rfl, rfl⟩
      · exact .inr h
      · exact .inl ⟨before, l, init, rfl, h⟩

end Detector

namespace Detector

variable {d : Detector} {m : String}

/-- The span that is open after some lines belongs to the last line that opens or closes a span. -/
theorem current_run {ls : List Line} (hls : ∀ l ∈ ls, l.kind ≠ .metadata) {span : Span} :
    (d.run {} ls).current = some (m, span) ↔
      ∃ before o body, ls = before ++ o :: body ∧ d.Opens m o ∧ (∀ l ∈ body, ¬ d.Resets l) ∧
        Span.follow? d.options.spanMode o.asSignature body = some span := by
  induction ls using List.reverseRecOn generalizing span with
  | nil => simp [run]
  | append_singleton ls l ih =>
    have hl : l.kind ≠ .metadata := hls l (by simp)
    have ih := @ih fun l' h => hls l' (by simp [h])
    rw [run_append_singleton]
    by_cases hr : d.Resets l
    · -- the body is empty, for it would end with a line that resets the walk
      rw [current_step_of_resets hr]
      constructor
      · intro h
        obtain ⟨n, hn, h⟩ := Option.bind_eq_some_iff.mp h
        obtain ⟨s, hs, h⟩ := Option.map_eq_some_iff.mp h
        cases h
        exact ⟨ls, l, [], rfl, ⟨hl, hn⟩, by simp, hs⟩
      · rintro ⟨before, o, body, heq, ⟨-, hn⟩, hbody, hs⟩
        rcases concat_eq_append_cons heq with ⟨rfl, rfl, rfl⟩ | ⟨init, rfl, rfl⟩
        · rw [hn]
          simpa [Span.follow?] using hs
        · exact absurd hr (hbody l (by simp))
    · -- the line belongs to the body, for it does not open a span
      rw [current_step_of_not_resets hl hr]
      constructor
      · intro h
        obtain ⟨⟨n, s⟩, hcur, h⟩ := Option.bind_eq_some_iff.mp h
        obtain ⟨s', hs', h⟩ := Option.map_eq_some_iff.mp h
        cases h
        obtain ⟨before, o, body, rfl, ho, hbody, hs⟩ := ih.mp hcur
        refine ⟨before, o, body ++ [l], by simp, ho, ?_, ?_⟩
        · intro l' hl'
          rcases List.mem_append.mp hl' with h | h
          · exact hbody l' h
          · rw [List.mem_singleton.mp h]; exact hr
        · rw [Span.follow?_append_singleton, hs]
          exact hs'
      · rintro ⟨before, o, body, heq, ho, hbody, hs⟩
        rcases concat_eq_append_cons heq with ⟨rfl, rfl, rfl⟩ | ⟨init, rfl, rfl⟩
        · exact absurd (.inl ⟨m, ho⟩) hr
        · rw [Span.follow?_append_singleton] at hs
          obtain ⟨s, hs, hnext⟩ := Option.bind_eq_some_iff.mp hs
          have hcur := ih.mpr ⟨before, o, init, rfl, ho, fun l' h => hbody l' (by simp [h]), hs⟩
          rw [hcur]
          simp [hnext]

end Detector

end TestImpact.Patch
