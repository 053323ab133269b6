import TestImpact.Proofs.Patch.Scan

/-!
# What a touched method is

The detector walks over a patch with one open span at a time. Here the result is told without a
walk, by positions in the patch: a method is touched if its signature is edited, where that counts,
or if some edit lies in a body that some earlier line has opened (`Detector.EditsBody`). Whether an
edit lies in a body is a matter of indentation or of sums of braces (`InBody`). The two agree for
every matcher, all options and every patch (`mem_touchedMethods_iff`).
-/

namespace TestImpact.Patch

/-- The lines of a patch that are not metadata. -/
def sourceLines (patch : List Char) : List Line := (linesOf patch).filter (·.kind ≠ .metadata)

/-- The lines from position `s` to position `t`, both included. -/
def segment (lines : List Line) (s t : Nat) : List Line := (lines.drop s).take (t + 1 - s)

/-- Whether the line at position `i` lies in the body that the signature at position `s` begins.
By indentation: the line is indented deeper than the signature, and no lone closing brace stands
between the two. By braces: before the line a brace is open on one side of the change, the braces
being counted from the signature on, and the body has not been closed at any line before. -/
def InBody (mode : SpanMode) (lines : List Line) (s i : Nat) : Prop :=
  match mode with
  | .indentation =>
    (∃ o ∈ lines[s]?, ∃ e ∈ lines[i]?, indentWidth o.content < indentWidth e.content) ∧
      ∀ t, s < t → t < i → ∀ l ∈ lines[t]?, Text.trim l.content ≠ ['\x7D']
  | .braces =>
    (∃ side, 0 < netBraces side (segment lines s (i - 1))) ∧
      ∀ t, s ≤ t → t < i → ¬ Closed (segment lines s t)

/-- The line at position `i` is an edit in the body of a method whose span the line at position `s`
opens, and no line after that one up to the edit resets the walk. -/
structure Detector.EditsBody (d : Detector) (lines : List Line) (m : String) (s i : Nat) :
    Prop where
  before : s < i
  opener : ∃ o ∈ lines[s]?, d.Opens m o
  undisturbed : ∀ t, s < t → t ≤ i → ∀ l ∈ lines[t]?, ¬ d.Resets l
  edit : ∃ e ∈ lines[i]?, e.isEdit = true
  inside : InBody d.options.spanMode lines s i

/-! ## Positions -/

/-- Two positions cut a list of lines into five pieces. -/
theorem exists_split {lines : List Line} {s i : Nat} {o e : Line} (h : s < i)
    (hs : lines[s]? = some o) (hi : lines[i]? = some e) :
    ∃ before body after, lines = before ++ o :: (body ++ e :: after) ∧
      before.length = s ∧ s + body.length + 1 = i := by
  obtain ⟨hslt, rfl⟩ := List.getElem?_eq_some_iff.mp hs
  obtain ⟨hilt, rfl⟩ := List.getElem?_eq_some_iff.mp hi
  refine ⟨lines.take s, (lines.drop (s + 1)).take (i - (s + 1)), lines.drop (i + 1), ?_, ?_, ?_⟩
  · have hrest : (lines.drop (s + 1)).drop (i - (s + 1)) = lines[i] :: lines.drop (i + 1) := by
      rw [List.drop_drop, show s + 1 + (i - (s + 1)) = i by omega]
      exact List.drop_eq_getElem_cons hilt
    rw [← hrest, List.take_append_drop, ← List.drop_eq_getElem_cons hslt, List.take_append_drop]
  · simp only [List.length_take]; omega
  · simp only [List.length_take, List.length_drop]; omega

section Split

variable {before body after : List Line} {o e : Line}

theorem getElem?_split_opener :
    (before ++ o :: (body ++ e :: after))[before.length]? = some o := by
  simp

theorem getElem?_split_edit :
    (before ++ o :: (body ++ e :: after))[before.length + body.length + 1]? = some e := by
  rw [List.getElem?_append_right (by omega),
    show before.length + body.length + 1 - before.length = body.length + 1 by omega]
  simp

/-- The positions strictly between the two are those of the body. -/
theorem forall_between_iff {P : Line → Prop} :
    (∀ t, before.length < t → t < before.length + body.length + 1 →
        ∀ l ∈ (before ++ o :: (body ++ e :: after))[t]?, P l) ↔
      ∀ l ∈ body, P l := by
  have hget : ∀ k, k < body.length →
      (before ++ o :: (body ++ e :: after))[before.length + 1 + k]? = body[k]? := by
    intro k hk
    rw [List.getElem?_append_right (by omega),
      show before.length + 1 + k - before.length = k + 1 by omega, List.getElem?_cons_succ,
      List.getElem?_append_left hk]
  constructor
  · intro h l hl
    obtain ⟨k, hk, rfl⟩ := List.mem_iff_getElem.mp hl
    refine h (before.length + 1 + k) (by omega) (by omega) _ ?_
    rw [hget k hk]
    simp [hk]
  · intro h t hlo hhi l hl
    obtain ⟨k, rfl⟩ : ∃ k, t = before.length + 1 + k := ⟨t - (before.length + 1), by omega⟩
    rw [hget k (by omega)] at hl
    exact h l (List.mem_of_getElem? hl)

theorem segment_split {k : Nat} (hk : k ≤ body.length) :
    segment (before ++ o :: (body ++ e :: after)) before.length (before.length + k) =
      o :: body.take k := by
  rw [segment, show before.length + k + 1 - before.length = k + 1 by omega, List.drop_left,
    List.take_succ_cons, List.take_append_of_le_length hk]

/-- The body has been closed at no line before the edit if no prefix of what the span sees closes
it. -/
theorem forall_not_closed_iff :
    (∀ t, before.length ≤ t → t < before.length + body.length + 1 →
        ¬ Closed (segment (before ++ o :: (body ++ e :: after)) before.length t)) ↔
      ∀ p, p <+: o :: body → ¬ Closed p := by
  constructor
  · intro h p hp
    rcases List.prefix_cons_iff.mp hp with rfl | ⟨q, rfl, hq⟩
    · exact not_closed_nil
    · have hle : q.length ≤ body.length := hq.length_le
      have := h (before.length + q.length) (by omega) (by omega)
      rwa [segment_split hle, ← List.prefix_iff_eq_take.mp hq] at this
  · intro h t hlo hhi
    obtain ⟨k, rfl⟩ : ∃ k, t = before.length + k := ⟨t - before.length, by omega⟩
    rw [segment_split (by omega)]
    exact h _ (List.cons_prefix_cons.mpr ⟨rfl, List.take_prefix k body⟩)

/-- Following the span over the lines between a signature and an edit tells whether the edit lies
in the body. -/
theorem inBody_split_iff (mode : SpanMode) (ho : o.kind ≠ .metadata)
    (hbody : ∀ l ∈ body, l.kind.IsSource) :
    InBody mode (before ++ o :: (body ++ e :: after)) before.length
        (before.length + body.length + 1) ↔
      ∃ span, Span.follow? mode o.asSignature body = some span ∧ span.contains e = true := by
  cases mode with
  | indentation =>
    simp only [InBody, getElem?_split_opener, getElem?_split_edit, Span.follow?_indentation,
      Line.content_asSignature]
    constructor
    · rintro ⟨⟨_, ⟨⟩, _, ⟨⟩, hlt⟩, hall⟩
      exact ⟨_, ⟨forall_between_iff.mp hall, rfl⟩, by simpa [Span.contains] using hlt⟩
    · rintro ⟨_, ⟨hall, rfl⟩, hlt⟩
      exact ⟨⟨o, rfl, e, rfl, by simpa [Span.contains] using hlt⟩, forall_between_iff.mpr hall⟩
  | braces =>
    have hseg : segment (before ++ o :: (body ++ e :: after)) before.length
        (before.length + body.length + 1 - 1) = o :: body := by
      rw [Nat.add_sub_cancel, segment_split (Nat.le_refl _), List.take_length]
    simp only [InBody, hseg, forall_not_closed_iff, Span.follow?_braces ho hbody]
    constructor
    · rintro ⟨hopen, hall⟩
      exact ⟨_, ⟨hall, rfl⟩, (Span.contains_after _ e).mpr hopen⟩
    · rintro ⟨_, ⟨hall, rfl⟩, hcont⟩
      exact ⟨(Span.contains_after _ e).mp hcont, hall⟩

end Split

/-! ## Touched methods -/

namespace Detector

variable {d : Detector} {m : String}

/-- Every method that is touched, and the one whose span is open, has been met. -/
theorem opened_of_touched {ls : List Line} (hls : ∀ l ∈ ls, l.kind ≠ .metadata)
    (h : m ∈ (d.run {} ls).touched) : m ∈ (d.run {} ls).opened := by
  obtain ⟨before, l, after, rfl, ht⟩ := mem_touched_run.mp h
  rw [mem_opened_run]
  rcases ht with ⟨-, -, hn⟩ | ⟨-, -, span, hcur, -⟩
  · exact ⟨l, by simp, hls l (by simp), hn⟩
  · have hbefore : ∀ l' ∈ before, l'.kind ≠ .metadata := fun l' h => hls l' (by simp [h])
    obtain ⟨_, o, _, rfl, ho, -⟩ := (current_run hbefore).mp hcur
    exact ⟨o, by simp, ho⟩

/-- A line touches a method in its body if it is an edit in a body that a line before it opens. -/
theorem editsBody_iff {lines : List Line} (hls : ∀ l ∈ lines, l.kind ≠ .metadata) :
    (∃ before e after, lines = before ++ e :: after ∧ ¬ d.Resets e ∧ e.isEdit = true ∧
        ∃ span, (d.run {} before).current = some (m, span) ∧ span.contains e = true) ↔
      ∃ s i, d.EditsBody lines m s i := by
  constructor
  · rintro ⟨front, e, after, rfl, hr, he, span, hcur, hcont⟩
    have hfront : ∀ l ∈ front, l.kind ≠ .metadata := fun l h => hls l (by simp [h])
    obtain ⟨before, o, body, rfl, ho, hbody, hspan⟩ := (current_run hfront).mp hcur
    have hsource : ∀ l ∈ body, l.kind.IsSource := fun l h =>
      isSource_of_not_resets (hls l (by simp [h])) (hbody l h)
    rw [List.append_assoc, List.cons_append]
    refine ⟨before.length, before.length + body.length + 1, by omega,
      ⟨o, getElem?_split_opener, ho⟩, ?_, ⟨e, getElem?_split_edit, he⟩,
      (inBody_split_iff _ ho.1 hsource).mpr ⟨span, hspan, hcont⟩⟩
    intro t hlo hhi
    rcases Nat.lt_or_eq_of_le hhi with hlt | rfl
    · exact forall_between_iff.mpr hbody t hlo hlt
    · rw [getElem?_split_edit]
      rintro _ ⟨⟩
      exact hr
  · rintro ⟨s, i, hlt, ⟨o, hs, ho⟩, hundisturbed, ⟨e, hi, he⟩, hin⟩
    -- the two positions cut the lines into what is before, between and behind
    obtain ⟨before, body, after, rfl, rfl, rfl⟩ := exists_split hlt hs hi
    have hbody : ∀ l ∈ body, ¬ d.Resets l :=
      forall_between_iff.mp fun t hlo hhi => hundisturbed t hlo (by omega)
    have hsource : ∀ l ∈ body, l.kind.IsSource := fun l h =>
      isSource_of_not_resets (hls l (by simp [h])) (hbody l h)
    obtain ⟨span, hspan, hcont⟩ := (inBody_split_iff _ ho.1 hsource).mp hin
    refine ⟨before ++ o :: body, e, after, by simp, ?_, he, span, ?_, hcont⟩
    · exact hundisturbed _ (by omega) (Nat.le_refl _) e getElem?_split_edit
    · refine (current_run fun l h => hls l ?_).mpr ⟨before, o, body, rfl, ho, hbody, hspan⟩
      rcases List.mem_append.mp h with h | h
      · simp [h]
      · rcases List.mem_cons.mp h with rfl | h <;> simp [*]

end Detector

/-- **The detector meets its declarative meaning.** A method is touched by a patch if and only if
its signature is edited, where such edits count, or some edit lies in a body that an earlier line
has opened. -/
theorem mem_touchedMethods_iff (d : Detector) (patch : List Char) (m : String) :
    m ∈ d.touchedMethods patch ↔
      (d.options.countSignatureEdits = true ∧
        ∃ l ∈ sourceLines patch, l.isEdit = true ∧ d.matcher l.content = some m) ∨
      ∃ s i, d.EditsBody (sourceLines patch) m s i := by
  have hls : ∀ l ∈ sourceLines patch, l.kind ≠ .metadata := fun l h => by
    simpa using (List.mem_filter.mp h).2
  -- the methods are listed as they were met, and every touched one has been met
  have hresult : m ∈ d.touchedMethods patch ↔ m ∈ (d.run {} (sourceLines patch)).touched := by
    rw [Detector.touchedMethods, ← Detector.run_filter_metadata]
    simp only [Scan.result, List.mem_filter, List.contains_iff_mem]
    exact ⟨And.right, fun h => ⟨Detector.opened_of_touched hls h, h⟩⟩
  rw [hresult, Detector.mem_touched_run, ← Detector.editsBody_iff hls]
  constructor
  · rintro ⟨before, l, after, heq, ⟨hc, he, hn⟩ | ⟨hr, he, hspan⟩⟩
    · exact .inl ⟨hc, l, by simp [heq], he, hn⟩
    · exact .inr ⟨before, l, after, heq, hr, he, hspan⟩
  · rintro (⟨hc, l, hl, he, hn⟩ | ⟨before, l, after, heq, hr, he, hspan⟩)
    · obtain ⟨before, after, heq⟩ := List.append_of_mem hl
      exact ⟨before, l, after, heq, .inl ⟨hc, he, hn⟩⟩
    · exact ⟨before, l, after, heq, .inr ⟨hr, he, hspan⟩⟩

example : ({} : Detector).touchedMethods
    "@@ -1,2 +1,3 @@\n void run() \x7b\n+  go();\n \x7d\n".toList = ["run"] := by
  decide +kernel

end TestImpact.Patch
