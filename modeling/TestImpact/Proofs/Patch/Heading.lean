import TestImpact.Proofs.Patch.Declaration
import TestImpact.Proofs.Patch.Hunks

/-!
# Hunks that start inside a method

A hunk seldom begins at the signature of the method that it changes. Its header then names that
method in a heading, and the edits of the hunk should be attributed to it. The walk reads the
heading as a signature, so the braces are counted from the heading on, and not from the body that
the hunk lies in. That is right exactly if the heading shows the brace of the body: without it an
edit counts only behind a brace that the hunk itself has opened (`attributed_iff`).
-/

namespace TestImpact.Patch

/-- A hunk that starts inside the method that its heading names and does not leave it. -/
structure Detector.StartsInside (d : Detector) (m : String) (header : Line) (body : List Line) :
    Prop where
  is_header : header.kind = .hunkHeader
  named : d.matcher header.content = some m
  not_left_in_heading : '}' ∉ header.content
  undisturbed : ∀ l ∈ body, ¬ d.Resets l
  not_left : ∀ side p, p <+: body → 0 ≤ netBraces side p

/-- Every hunk that starts inside a method is attributed to it if it has an edit. -/
def Detector.AttributesHunks (d : Detector) : Prop :=
  ∀ m header body, d.StartsInside m header body → (∃ e ∈ body, e.isEdit = true) →
    ∀ patch before after, linesOf patch = before ++ header :: (body ++ after) →
      m ∈ d.touchedMethods patch

/-- Some edit stands behind a brace that these lines have opened, and no line up to it has closed
what was open. -/
def EditsBehindBrace (body : List Line) : Prop :=
  ∃ pre e post, body = pre ++ e :: post ∧ e.isEdit = true ∧ (∃ side, 0 < netBraces side pre) ∧
    ∀ p, p <+: pre → ¬ Closed p

/-! ## The braces of a heading -/

section Heading

variable {header : Line} (hk : header.kind = .hunkHeader)

include hk

/-- The heading stands on both sides. -/
theorem netBraces_header (side : Side) (ls : List Line) :
    netBraces side (header :: ls) = braceDelta header.content + netBraces side ls := by
  have hside : side.has header.kind = true := by
    rw [hk]
    cases side <;> rfl
  rw [netBraces, if_pos hside]

/-- A heading without braces enters no side. -/
theorem entered_header (hzero : braceDelta header.content = 0) (side : Side) (ls : List Line) :
    side.Entered (header :: ls) ↔ side.Entered ls := by
  constructor
  · rintro ⟨p, hp, hpos⟩
    rcases List.prefix_cons_iff.mp hp with rfl | ⟨q, rfl, hq⟩
    · simp at hpos
    · rw [netBraces_header hk, hzero, Int.zero_add] at hpos
      exact ⟨q, hq, hpos⟩
  · rintro ⟨p, hp, hpos⟩
    refine ⟨header :: p, List.cons_prefix_cons.mpr ⟨rfl, hp⟩, ?_⟩
    rw [netBraces_header hk, hzero, Int.zero_add]
    exact hpos

/-- A heading without braces counts for nothing. -/
theorem closed_header (hzero : braceDelta header.content = 0) (ls : List Line) :
    Closed (header :: ls) ↔ Closed ls := by
  simp only [Closed, entered_header hk hzero, netBraces_header hk, hzero, Int.zero_add]

end Heading

theorem not_closed_of_pos {ls : List Line} (h : ∀ side, 0 < netBraces side ls) : ¬ Closed ls := by
  rintro ⟨⟨side, hentered⟩, hsettled⟩
  have hpos := h side
  have hle := hsettled side hentered
  omega

/-! ## The span of a heading -/

theorem Span.after_append_metadata (ls : List Line) {l : Line} (hk : l.kind = .metadata) :
    Span.after (ls ++ [l]) = Span.after ls := by
  simp [Span.after, Side.depth_append_singleton, Side.has, hk]

theorem closed_append_metadata (ls : List Line) {l : Line} (hk : l.kind = .metadata) :
    Closed (ls ++ [l]) ↔ Closed ls := by
  rw [← Span.isClosed_after (ls ++ [l]) l, Span.after_append_metadata ls hk, Span.isClosed_after]

namespace Detector

variable {d : Detector} {m : String} {header : Line}

/-- After a heading that names a method its span is open until a line ends it, and has counted the
heading and the lines since. -/
theorem current_run_heading (hmode : d.options.spanMode = .braces)
    (hk : header.kind = .hunkHeader) (hn : d.matcher header.content = some m) {body : List Line}
    (hbody : ∀ l ∈ body, ¬ d.Resets l) {span : Span} :
    (d.run {} (header :: body)).current = some (m, span) ↔
      (∀ p, p <+: header :: body → ¬ Closed p) ∧ span = Span.after (header :: body) := by
  -- along the body, from its end: a line is judged by the span that the lines before it leave
  induction body using List.reverseRecOn generalizing span with
  | nil =>
    have hk' : header.kind ≠ .metadata := by simp [hk]
    have hopen : (d.run {} [header]).current =
        ((Span.after []).next? header.asSignature).map (m, ·) := by
      show (d.step {} header).current = _
      rw [current_step_of_resets (.inr hk), hn, hmode]
      rfl
    rw [hopen, Option.map_eq_some_iff]
    constructor
    · rintro ⟨s, hs, heq⟩
      cases heq
      obtain ⟨hc, rfl⟩ := (Span.next?_after [] hk' _).mp hs
      refine ⟨forall_prefix_cons_iff.mpr ⟨not_closed_nil, fun p hp => ?_⟩, rfl⟩
      rw [List.prefix_nil.mp hp]
      exact hc
    · rintro ⟨hall, rfl⟩
      exact ⟨_, (Span.next?_after [] hk' _).mpr ⟨hall [header] List.prefix_rfl, rfl⟩, rfl⟩
  | append_singleton body l ih =>
    have ih := @ih fun l' h => hbody l' (by simp [h])
    have hr : ¬ d.Resets l := hbody l (by simp)
    rw [← List.cons_append, run_append_singleton, forall_prefix_concat_iff]
    by_cases hm : l.kind = .metadata
    · -- metadata changes neither the span nor what has been closed
      have hstep : d.step (d.run {} (header :: body)) l = d.run {} (header :: body) := by
        simp [step, hm]
      rw [hstep, ih, Span.after_append_metadata _ hm, closed_append_metadata _ hm]
      constructor
      · rintro ⟨h, hs⟩
        exact ⟨⟨h, h _ List.prefix_rfl⟩, hs⟩
      · rintro ⟨⟨h, -⟩, hs⟩
        exact ⟨h, hs⟩
    · have hnext := Span.next?_after (header :: body) hm
      rw [Line.asSignature_of_isSource (isSource_of_not_resets hm hr)] at hnext
      rw [current_step_of_not_resets hm hr, Option.bind_eq_some_iff]
      constructor
      · rintro ⟨⟨n, s⟩, hcur, h⟩
        obtain ⟨s', hs', heq⟩ := Option.map_eq_some_iff.mp h
        cases heq
        obtain ⟨hall, rfl⟩ := ih.mp hcur
        obtain ⟨hlast, rfl⟩ := (hnext _).mp hs'
        exact ⟨⟨hall, hlast⟩, rfl⟩
      · rintro ⟨⟨hall, hlast⟩, rfl⟩
        refine ⟨(m, Span.after (header :: body)), ih.mpr ⟨hall, rfl⟩, ?_⟩
        rw [(hnext _).mpr ⟨hlast, rfl⟩]
        rfl

/-- A hunk touches the method of its heading by the edits inside the span of the heading. -/
theorem mem_touched_heading (hmode : d.options.spanMode = .braces)
    (hk : header.kind = .hunkHeader) (hn : d.matcher header.content = some m) {body : List Line}
    (hbody : ∀ l ∈ body, ¬ d.Resets l) :
    m ∈ (d.run {} (header :: body)).touched ↔
      ∃ pre e post, body = pre ++ e :: post ∧ e.isEdit = true ∧
        (∃ side, 0 < netBraces side (header :: pre)) ∧
        ∀ p, p <+: header :: pre → ¬ Closed p := by
  rw [mem_touched_run]
  constructor
  · rintro ⟨before, e, post, heq, ht⟩
    cases before with
    | nil =>
      obtain ⟨rfl, -⟩ := List.cons.inj heq
      exact absurd ht (not_touches_of_hunkHeader hk _)
    | cons _ pre =>
      obtain ⟨rfl, rfl⟩ := List.cons.inj heq
      have hr : ¬ d.Resets e := hbody e (by simp)
      rcases ht with ⟨-, he, hne⟩ | ⟨-, he, span, hcur, hcont⟩
      · have hkind : e.kind ≠ .metadata := by
          rcases Line.isSource_of_isEdit he with h | h <;> simp [h]
        -- an edit of a signature would have given the span up
        exact absurd (.inl ⟨m, hkind, hne⟩) hr
      · have hpre : ∀ l ∈ pre, ¬ d.Resets l := fun l hl => hbody l (by simp [hl])
        obtain ⟨hall, rfl⟩ := (current_run_heading hmode hk hn hpre).mp hcur
        exact ⟨pre, e, post, rfl, he, (Span.contains_after _ e).mp hcont, hall⟩
  · rintro ⟨pre, e, post, rfl, he, hside, hall⟩
    have hpre : ∀ l ∈ pre, ¬ d.Resets l := fun l hl => hbody l (by simp [hl])
    refine ⟨header :: pre, e, post, rfl, .inr ⟨hbody e (by simp), he, ?_⟩⟩
    exact ⟨_, (current_run_heading hmode hk hn hpre).mpr ⟨hall, rfl⟩,
      (Span.contains_after _ e).mpr hside⟩

/-- With the brace of the body in the heading, every edit of the hunk lies inside the span. Without
it the heading counts for nothing. -/
theorem StartsInside.mem_touched_iff {body : List Line} (hmode : d.options.spanMode = .braces)
    (h : d.StartsInside m header body) (hedit : ∃ e ∈ body, e.isEdit = true) :
    m ∈ (d.run {} (header :: body)).touched ↔ '{' ∈ header.content ∨ EditsBehindBrace body := by
  rw [mem_touched_heading hmode h.is_header h.named h.undisturbed]
  by_cases hbrace : '{' ∈ header.content
  · have hdelta := braceDelta_pos hbrace h.not_left_in_heading
    have hpos : ∀ p, p <+: body → ∀ side, 0 < netBraces side (header :: p) := by
      intro p hp side
      have hp := h.not_left side p hp
      rw [netBraces_header h.is_header]
      omega
    refine iff_of_true ?_ (.inl hbrace)
    obtain ⟨e, he, hedit⟩ := hedit
    obtain ⟨pre, post, rfl⟩ := List.append_of_mem he
    refine ⟨pre, e, post, rfl, hedit, ⟨.old, hpos pre (List.prefix_append _ _) .old⟩, ?_⟩
    rw [forall_prefix_cons_iff]
    refine ⟨not_closed_nil, fun p hp => ?_⟩
    exact not_closed_of_pos (hpos p (hp.trans (List.prefix_append _ _)))
  · have hzero := braceDelta_eq_zero hbrace h.not_left_in_heading
    simp only [netBraces_header h.is_header, hzero, Int.zero_add, forall_prefix_cons_iff,
      closed_header h.is_header hzero, not_closed_nil, not_false_eq_true, true_and, hbrace,
      false_or, EditsBehindBrace]

/-- What a hunk touches by itself it touches in every patch. -/
theorem mem_touchedMethods_of_hunk {patch : List Char} {before body after : List Line}
    (hk : header.kind = .hunkHeader)
    (hpatch : linesOf patch = before ++ header :: (body ++ after))
    (h : m ∈ (d.run {} (header :: body)).touched) : m ∈ d.touchedMethods patch := by
  rw [mem_touchedMethods, hpatch, run_append, mem_touched_run_hunk hk]
  obtain ⟨pre, l, post, heq, ht⟩ := mem_touched_run.mp h
  refine .inr (mem_touched_run.mpr ⟨pre, l, post ++ after, ?_, ht⟩)
  rw [← List.cons_append, heq]
  simp

end Detector

/-- **When a hunk is attributed to the method of its heading.** Take a hunk that starts inside the
method and has an edit. Every patch with this hunk touches the method if and only if the heading
shows the brace of the body or some edit stands behind a brace that the hunk has opened. -/
theorem attributed_iff {d : Detector} {m : String} {header : Line} {body : List Line}
    (hmode : d.options.spanMode = .braces) (h : d.StartsInside m header body)
    (hedit : ∃ e ∈ body, e.isEdit = true) (hwritten : ∃ patch, linesOf patch = header :: body) :
    (∀ patch before after, linesOf patch = before ++ header :: (body ++ after) →
        m ∈ d.touchedMethods patch) ↔
      '{' ∈ header.content ∨ EditsBehindBrace body := by
  rw [← h.mem_touched_iff hmode hedit]
  constructor
  · intro hall
    -- the hunk is a patch of its own
    obtain ⟨patch, hpatch⟩ := hwritten
    have htouched := hall patch [] [] (by simp [hpatch])
    rwa [Detector.mem_touchedMethods, hpatch] at htouched
  · intro htouched patch before after hpatch
    exact Detector.mem_touchedMethods_of_hunk h.is_header hpatch htouched

/-- A heading that shows the brace of the body. -/
def bracedHeading : Line := ⟨.hunkHeader, "void run() \x7B".toList⟩

/-- A heading whose brace stands on the next line. -/
def bareHeading : Line := ⟨.hunkHeader, "void run()".toList⟩

/-- An edit in the body of a method. -/
def taxLine : Line := ⟨.added, "    total += tax;".toList⟩

theorem default_bracedHeading : SignatureMatcher.default bracedHeading.content = some "run" := by
  decide +kernel

theorem default_bareHeading : SignatureMatcher.default bareHeading.content = some "run" := by
  decide +kernel

theorem default_taxLine : SignatureMatcher.default taxLine.content = none :=
  default_eq_none_of_notMem (by decide)

theorem startsInside_taxLine (header : Line) (hk : header.kind = .hunkHeader)
    (hn : SignatureMatcher.default header.content = some "run") (hclose : '}' ∉ header.content) :
    ({} : Detector).StartsInside "run" header [taxLine] where
  is_header := hk
  named := hn
  not_left_in_heading := hclose
  undisturbed := by
    intro l hl
    rw [List.mem_singleton.mp hl]
    rintro (⟨m, -, hm⟩ | hkind)
    · have husual : ({} : Detector).matcher = SignatureMatcher.default := rfl
      rw [husual, default_taxLine] at hm
      cases hm
    · cases hkind
  not_left := by
    intro side
    rw [forall_prefix_cons_iff]
    refine ⟨Int.le_refl 0, fun p hp => ?_⟩
    rw [List.prefix_nil.mp hp]
    cases side <;> decide

/-- A heading with its brace: the edit below it is attributed. -/
theorem attributed_iff_braced :
    ({} : Detector).options.spanMode = .braces ∧
    ({} : Detector).StartsInside "run" bracedHeading [taxLine] ∧
    (∃ e ∈ [taxLine], e.isEdit = true) ∧
    (∃ patch, linesOf patch = [bracedHeading, taxLine]) ∧
    ∀ patch before after, linesOf patch = before ++ bracedHeading :: ([taxLine] ++ after) →
      "run" ∈ ({} : Detector).touchedMethods patch := by
  have hinside := startsInside_taxLine bracedHeading rfl default_bracedHeading (by decide)
  have hedit : ∃ e ∈ [taxLine], e.isEdit = true := by decide
  have hwritten : ∃ patch, linesOf patch = [bracedHeading, taxLine] :=
    ⟨"@@ -4,0 +5 @@ void run() \x7B\n+    total += tax;\n".toList, by decide⟩
  exact ⟨rfl, hinside, hedit, hwritten,
    (attributed_iff rfl hinside hedit hwritten).mpr (.inl (by decide))⟩

/-- An edit right below a heading without the brace of the body is lost. -/
theorem not_attributesHunks :
    ({} : Detector).options.spanMode = .braces ∧ ¬ ({} : Detector).AttributesHunks := by
  refine ⟨rfl, fun hall => ?_⟩
  have hinside := startsInside_taxLine bareHeading rfl default_bareHeading (by decide)
  have hedit : ∃ e ∈ [taxLine], e.isEdit = true := by decide
  have hpatch : linesOf "@@ -4,0 +5 @@ void run()\n+    total += tax;\n".toList =
      [bareHeading, taxLine] := by decide
  have htouched := hall _ _ _ hinside hedit _ [] [] hpatch
  rw [Detector.mem_touchedMethods, hpatch, hinside.mem_touched_iff rfl hedit] at htouched
  rcases htouched with hbrace | ⟨pre, e, post, heq, -, ⟨side, hpos⟩, -⟩
  · exact absurd hbrace (by decide)
  · -- nothing stands before the edit that could have opened a brace
    obtain rfl : pre = [] := by
      cases pre with
      | nil => rfl
      | cons l pre => simp at heq
    simp at hpos

end TestImpact.Patch
