import TestImpact.Patch.Detector

/-!
# The patch of the reverse change

A change that is undone removes what it had added and adds what it had removed. Its patch, line by
line, has the markers `+` and `-` exchanged. A walk over it is the mirror image of the walk over the
patch: the two sides of the open span have changed places (`Detector.step_reversed`), which nobody
can tell from the outside. So both patches touch the same methods (`touchedMethods_reversePatch`).

A line that begins with three markers may be the header of a file before or after the exchange, and
headers say nothing. Patches with such lines are left out (`MayBeFileHeader`).
-/

namespace TestImpact.Patch

/-! ## Texts -/

/-- The marker that a line gets when the change is undone. -/
def exchangeMarker (c : Char) : Char := if c = '+' then '-' else if c = '-' then '+' else c

/-- A line with its marker exchanged, if it has one of the two. -/
def reverseLine : List Char → List Char
  | [] => []
  | c :: l => exchangeMarker c :: l

/-- A text with the markers of its lines exchanged; `atStart` tells whether a line begins with its
first character. -/
def reverseFrom (atStart : Bool) : List Char → List Char
  | [] => []
  | c :: s => (if atStart then exchangeMarker c else c) :: reverseFrom (c = '\n') s

/-- The patch of the reverse change, with the lines in the same order. -/
def reversePatch (patch : List Char) : List Char := reverseFrom true patch

theorem exchangeMarker_of_ne {c : Char} (hadded : c ≠ '+') (hremoved : c ≠ '-') :
    exchangeMarker c = c := by
  simp [exchangeMarker, hadded, hremoved]

/-- Only markers change, and only into markers. -/
theorem exchangeMarker_eq_iff {c x : Char} (hadded : x ≠ '+') (hremoved : x ≠ '-') :
    exchangeMarker c = x ↔ c = x := by
  simp only [exchangeMarker]
  split
  · next h => simp [h, Ne.symm hadded, Ne.symm hremoved]
  · split
    · next h => simp [h, Ne.symm hadded, Ne.symm hremoved]
    · rfl

theorem reverseLine_append {l : List Char} (h : l ≠ []) (t : List Char) :
    reverseLine (l ++ t) = reverseLine l ++ t := by
  cases l with
  | nil => exact absurd rfl h
  | cons c l => rfl

theorem reverseLine_ne_nil {l : List Char} (h : l ≠ []) : reverseLine l ≠ [] := by
  cases l with
  | nil => exact absurd rfl h
  | cons c l => exact List.cons_ne_nil _ _

theorem reverseLine_getLast? (l : List Char) :
    (reverseLine l).getLast? = some '\r' ↔ l.getLast? = some '\r' := by
  match l with
  | [] => rfl
  | [c] => simp [reverseLine, exchangeMarker_eq_iff]
  | c :: c' :: l => simp [reverseLine, List.getLast?_cons_cons]

theorem reverseLine_dropLast (l : List Char) :
    (reverseLine l).dropLast = reverseLine l.dropLast := by
  match l with
  | [] => rfl
  | [c] => rfl
  | c :: c' :: l => simp [reverseLine, List.dropLast_cons_of_ne_nil]

/-- A carriage return at the end of a line is no marker, even if it stands alone. -/
theorem finishLine_reverseLine (l : List Char) :
    Text.finishLine (reverseLine l).reverse = reverseLine (Text.finishLine l.reverse) := by
  have hfinish : ∀ l : List Char, Text.finishLine l.reverse =
      if l.getLast? = some '\r' then l.dropLast else l := by
    intro l
    rcases List.eq_nil_or_concat l with rfl | ⟨init, c, rfl⟩
    · rfl
    · rw [List.concat_eq_append, List.reverse_concat]
      by_cases hc : c = '\r'
      · simp [hc, Text.finishLine]
      · simp [hc, Text.finishLine]
  rw [hfinish, hfinish]
  simp only [reverseLine_getLast?]
  split
  · exact reverseLine_dropLast l
  · rfl

/-- Exchanging markers is a matter of single lines. The induction carries what has been read of the
current line, whose first character alone may have changed. -/
theorem linesFrom_reverseFrom (front s : List Char) :
    Text.linesFrom (reverseLine front.reverse).reverse (reverseFrom front.isEmpty s) =
      (Text.linesFrom front s).map reverseLine := by
  induction s generalizing front with
  | nil =>
    cases front with
    | nil => rfl
    | cons c front =>
      have hne : reverseLine (front.reverse ++ [c]) ≠ [] := reverseLine_ne_nil (by simp)
      simp [reverseFrom, Text.linesFrom, hne]
  | cons c s ih =>
    have hstep : Text.linesFrom (reverseLine front.reverse).reverse
        (reverseFrom front.isEmpty (c :: s)) =
        if c = '\n' then Text.finishLine (reverseLine front.reverse).reverse ::
          Text.linesFrom [] (reverseFrom true s)
        else Text.linesFrom (reverseLine (c :: front).reverse).reverse (reverseFrom false s) := by
      by_cases hc : c = '\n'
      · cases front <;> simp [reverseFrom, Text.linesFrom, hc, exchangeMarker_of_ne]
      · cases front with
        | nil => simp [reverseFrom, Text.linesFrom, hc, exchangeMarker_eq_iff, reverseLine]
        | cons c' front =>
          have hfront : (reverseLine (c :: c' :: front).reverse).reverse =
              c :: (reverseLine (c' :: front).reverse).reverse := by
            rw [List.reverse_cons, reverseLine_append (by simp), List.reverse_concat]
          rw [hfront]
          simp [reverseFrom, Text.linesFrom, hc]
    rw [hstep, Text.linesFrom]
    split
    · rw [List.map_cons, ← ih [], finishLine_reverseLine, List.reverse_reverse]
      rfl
    · exact ih (c :: front)

theorem lines_reversePatch (patch : List Char) :
    Text.lines (reversePatch patch) = (Text.lines patch).map reverseLine :=
  linesFrom_reverseFrom [] patch

/-! ## Lines -/

def Kind.reversed : Kind → Kind
  | .added => .removed
  | .removed => .added
  | k => k

def Line.reversed (l : Line) : Line := ⟨l.kind.reversed, l.content⟩

/-- Whether a line begins with three markers in a row that can be those of a file header, once the
first of them is exchanged or as they are. -/
def MayBeFileHeader (l : List Char) : Prop :=
  ∃ start ∈ [['+', '+', '+'], ['-', '-', '-'], ['+', '-', '-'], ['-', '+', '+']], start <+: l

instance : DecidablePred MayBeFileHeader := fun l => inferInstanceAs (Decidable
  (∃ start ∈ [['+', '+', '+'], ['-', '-', '-'], ['+', '-', '-'], ['-', '+', '+']], start <+: l))

theorem MayBeFileHeader.mono {l l' : List Char} (h : MayBeFileHeader l) (hl : l <+: l') :
    MayBeFileHeader l' := by
  obtain ⟨start, hmem, hstart⟩ := h
  exact ⟨start, hmem, hstart.trans hl⟩

theorem starts_of_isFileHeader {l : List Char} (h : isFileHeader l = true) :
    ['+', '+', '+'] <+: l ∨ ['-', '-', '-'] <+: l := by
  simp only [isFileHeader, Bool.or_eq_true, decide_eq_true_eq, List.isPrefixOf_iff_prefix] at h
  rcases h with ((rfl | rfl) | h) | h
  · exact .inl List.prefix_rfl
  · exact .inr List.prefix_rfl
  · exact .inl (List.IsPrefix.trans ⟨[' '], rfl⟩ h)
  · exact .inr (List.IsPrefix.trans ⟨[' '], rfl⟩ h)

/-- With either of the two markers before its text the line is no header of a file. -/
theorem isFileHeader_marked {l : List Char} {marker : Char}
    (hmarker : marker = '+' ∨ marker = '-') (h : ¬ MayBeFileHeader (marker :: l)) :
    isFileHeader ('+' :: l) = false ∧ isFileHeader ('-' :: l) = false := by
  simp only [MayBeFileHeader, List.mem_cons, List.not_mem_nil, or_false, exists_eq_or_imp,
    exists_eq_left, not_or] at h
  obtain ⟨hplus, hminus, hplusMinus, hminusPlus⟩ := h
  refine ⟨Bool.eq_false_iff.mpr fun hl => ?_, Bool.eq_false_iff.mpr fun hl => ?_⟩ <;>
    have hl := starts_of_isFileHeader hl <;>
    rcases hmarker with rfl | rfl <;>
    simp_all [List.cons_prefix_cons]

/-- A reversed line is read as the reverse of what the line is read as. -/
theorem read_reverseLine {l : List Char} (h : ¬ MayBeFileHeader l) :
    Line.read (reverseLine l) = (Line.read l).reversed := by
  cases l with
  | nil => rfl
  | cons c l =>
    by_cases hadded : c = '+'
    · subst hadded
      obtain ⟨hplus, hminus⟩ := isFileHeader_marked (.inl rfl) h
      simp [reverseLine, exchangeMarker, Line.read, hplus, hminus, Line.reversed, Kind.reversed]
    by_cases hremoved : c = '-'
    · subst hremoved
      obtain ⟨hplus, hminus⟩ := isFileHeader_marked (.inr rfl) h
      simp [reverseLine, exchangeMarker, Line.read, hplus, hminus, Line.reversed, Kind.reversed]
    -- a line without one of the two markers stays as it is, and it is no edit
    · have hkind : (Line.read (c :: l)).kind.reversed = (Line.read (c :: l)).kind := by
        unfold Line.read
        split
        · rfl
        · split
          · rfl
          · split <;> simp_all [Kind.reversed]
      rw [reverseLine, exchangeMarker_of_ne hadded hremoved, Line.reversed, hkind]

theorem ofText_reverseLine {l : List Char} (h : ¬ MayBeFileHeader l) :
    Line.ofText (reverseLine l) = (Line.ofText l).reversed := by
  rw [Line.ofText, Line.ofText]
  simp only [reverseLine_getLast?]
  split
  · rw [reverseLine_dropLast]
    exact read_reverseLine fun h' => h (h'.mono (List.dropLast_prefix l))
  · exact read_reverseLine h

/-- The reversed patch is classified as the reverse of the patch. -/
theorem linesOf_reversePatch {patch : List Char}
    (h : ∀ l ∈ Text.lines patch, ¬ MayBeFileHeader l) :
    linesOf (reversePatch patch) = (linesOf patch).map Line.reversed := by
  rw [linesOf, lines_reversePatch, linesOf, List.map_map, List.map_map]
  exact List.map_congr_left fun l hl => ofText_reverseLine (h l hl)

@[simp] theorem Line.content_reversed (l : Line) : l.reversed.content = l.content := rfl

@[simp] theorem Line.kind_reversed (l : Line) : l.reversed.kind = l.kind.reversed := rfl

/-- Undoing an edit is an edit. -/
@[simp] theorem Line.isEdit_reversed (l : Line) : l.reversed.isEdit = l.isEdit := by
  have hchange : l.kind.reversed.isChange = l.kind.isChange := by cases l.kind <;> rfl
  rw [Line.isEdit, Line.kind_reversed, hchange]
  rfl

/-! ## Spans -/

namespace Span

/-- A span with its sides exchanged. -/
def reversed : Span → Span
  | .braces old new => .braces new old
  | .indentation baseline => .indentation baseline

/-- A reversed span contains the reversed lines. -/
@[simp] theorem contains_reversed (span : Span) (l : Line) :
    span.reversed.contains l.reversed = span.contains l := by
  cases span with
  | braces old new => exact Bool.or_comm ..
  | indentation baseline => rfl

/-- The counters of the two sides are exchanged with the sides. -/
theorem observe_reversed (span : Span) (l : Line) :
    span.reversed.observe l.reversed = (span.observe l).reversed := by
  cases span with
  | braces old new => cases hk : l.kind <;> simp [reversed, observe, hk, Kind.reversed]
  | indentation baseline => rfl

/-- A span ends when both of its sides allow it. -/
theorem isClosed_reversed (span : Span) (l : Line) :
    span.reversed.isClosed l.reversed = span.isClosed l := by
  cases span with
  | braces old new =>
    show ((new.entered || old.entered) && new.isSettled && old.isSettled) =
      ((old.entered || new.entered) && old.isSettled && new.isSettled)
    rw [Bool.or_comm, Bool.and_assoc, Bool.and_comm new.isSettled, ← Bool.and_assoc]
  | indentation baseline => rfl

theorem next?_reversed (span : Span) (l : Line) :
    span.reversed.next? l.reversed = (span.next? l).map reversed := by
  simp only [next?, observe_reversed, isClosed_reversed]
  split <;> rfl

theorem open?_reversed (mode : SpanMode) (l : Line) :
    open? mode l.reversed = (open? mode l).map reversed := by
  cases mode with
  | braces => exact next?_reversed (.braces {} {}) l
  | indentation => rfl

end Span

/-! ## Walks -/

/-- A walk with the sides of the open span exchanged. -/
def Scan.reversed (scan : Scan) : Scan :=
  { scan with current := scan.current.map fun (m, span) => (m, span.reversed) }

theorem Scan.openMethod_reversed (scan : Scan) (mode : SpanMode) (m : String) (l : Line) :
    scan.reversed.openMethod mode m l.reversed = (scan.openMethod mode m l).reversed := by
  simp only [openMethod, Span.open?_reversed, reversed, Option.map_map]
  rfl

theorem Scan.touch_reversed (scan : Scan) (m : String) :
    scan.reversed.touch m = (scan.touch m).reversed := rfl

namespace Detector

theorem stepHeader_reversed (d : Detector) (scan : Scan) (heading : List Char) :
    d.stepHeader scan.reversed heading = (d.stepHeader scan heading).reversed := by
  unfold stepHeader
  cases d.matcher heading with
  | none => rfl
  -- a heading opens its span as context, which stands on both sides
  | some m => exact Scan.openMethod_reversed scan d.options.spanMode m ⟨.context, heading⟩

theorem stepSignature_reversed (d : Detector) (scan : Scan) (m : String) (l : Line) :
    d.stepSignature scan.reversed m l.reversed = (d.stepSignature scan m l).reversed := by
  simp only [stepSignature, Scan.openMethod_reversed, Line.isEdit_reversed]
  split
  · exact Scan.touch_reversed ..
  · rfl

theorem stepBody_reversed (scan : Scan) (l : Line) :
    stepBody scan.reversed l.reversed = (stepBody scan l).reversed := by
  cases hcurrent : scan.current with
  | none => simp [stepBody, Scan.reversed, hcurrent]
  | some open_ =>
    obtain ⟨m, span⟩ := open_
    have hreversed : scan.reversed.current = some (m, span.reversed) := by
      simp [Scan.reversed, hcurrent]
    simp only [stepBody, hcurrent, hreversed, Line.isEdit_reversed, Span.contains_reversed,
      Span.next?_reversed]
    split <;> simp [Scan.reversed, Scan.touch, Function.comp_def]

/-- **Mirror images stay mirror images**: a line of the reverse change does to the reversed walk
what the line does to the walk. -/
theorem step_reversed (d : Detector) (scan : Scan) (l : Line) :
    d.step scan.reversed l.reversed = (d.step scan l).reversed := by
  have hsignature := d.stepSignature_reversed scan (l := l)
  have hbody := stepBody_reversed scan l
  cases hk : l.kind with
  | metadata => simp [step, hk, Kind.reversed]
  | hunkHeader => simpa [step, hk, Kind.reversed] using d.stepHeader_reversed scan l.content
  | _ =>
    simp only [step, hk, Line.kind_reversed, Kind.reversed, Line.content_reversed]
    cases d.matcher l.content with
    | none => exact hbody
    | some m => exact hsignature m

/-- A run over reversed lines is the reverse of the run. -/
theorem run_reversed (d : Detector) (scan : Scan) (ls : List Line) :
    d.run scan.reversed (ls.map Line.reversed) = (d.run scan ls).reversed := by
  induction ls generalizing scan with
  | nil => rfl
  | cons l ls ih =>
    show d.run (d.step scan.reversed l.reversed) (ls.map Line.reversed) = _
    rw [step_reversed, ih]
    rfl

end Detector

/-! ## Patches -/

/-- **The sides of a change are treated alike**: a change and its reverse touch the same methods, in
the same order. -/
theorem touchedMethods_reversePatch (d : Detector) {patch : List Char}
    (h : ∀ l ∈ Text.lines patch, ¬ MayBeFileHeader l) :
    d.touchedMethods (reversePatch patch) = d.touchedMethods patch := by
  calc d.touchedMethods (reversePatch patch)
      = (d.run {} ((linesOf patch).map Line.reversed)).result := by
        rw [Detector.touchedMethods, linesOf_reversePatch h]
    _ = (d.run {} (linesOf patch)).reversed.result :=
        congrArg Scan.result (d.run_reversed {} (linesOf patch))
    -- what has been found does not depend on the span that is open at the end
    _ = d.touchedMethods patch := rfl

/-- A change of a signature and of the body behind it. -/
def replacedBody : List Char :=
  ("@@ -1,4 +1,4 @@\n-void run()  \x7B\n+void run() \x7B\n" ++
    "   log();\n-  old();\n+  new();\n \x7D\n").toList

/-- A matcher that knows one method. -/
def runMatcher : SignatureMatcher := fun l =>
  if "void run()".toList.isPrefixOf l then some "run" else none

/-- A body with a line replaced, under a declaration that was written anew: its reverse, and the
method. -/
theorem touchedMethods_reversePatch_replacedBody :
    (∀ l ∈ Text.lines replacedBody, ¬ MayBeFileHeader l) ∧
      reversePatch replacedBody =
        ("@@ -1,4 +1,4 @@\n+void run()  \x7B\n-void run() \x7B\n" ++
          "   log();\n+  old();\n-  new();\n \x7D\n").toList ∧
      Detector.touchedMethods { matcher := runMatcher } replacedBody = ["run"] ∧
      Detector.touchedMethods { matcher := runMatcher } (reversePatch replacedBody) =
        Detector.touchedMethods { matcher := runMatcher } replacedBody :=
  ⟨by decide, by decide, by decide, touchedMethods_reversePatch _ (by decide)⟩

end TestImpact.Patch
