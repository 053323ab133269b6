import Mathlib.Data.List.Induction
import TestImpact.Patch.Span
import TestImpact.Proofs.Lists

/-!
# The balance of braces

A span that is followed by its braces keeps two counters. Here they are tied to sums over the lines
that the span has seen: on each side of the change the depth is the net number of braces of the
lines on that side (`Side.depth_depth`), and a side has been entered once such a sum has been
positive (`Side.depth_entered`). So the span has ended exactly if some side has been entered and no
side that has been entered is still open (`isClosed_after`).
-/

namespace TestImpact.Patch

/-! ## Lines of source text -/

/-- The kinds of the lines that hold source text. -/
def Kind.IsSource (k : Kind) : Prop := k = .added ∨ k = .removed ∨ k = .context

theorem Kind.isSource_of_ne {k : Kind} (hm : k ≠ .metadata) (hh : k ≠ .hunkHeader) :
    k.IsSource := by
  cases k <;> simp_all [Kind.IsSource]

theorem Kind.IsSource.ne_metadata {k : Kind} (h : k.IsSource) : k ≠ .metadata := by
  rcases h with h | h | h <;> simp [h]

theorem Kind.IsSource.ne_hunkHeader {k : Kind} (h : k.IsSource) : k ≠ .hunkHeader := by
  rcases h with h | h | h <;> simp [h]

/-- The signature that a line is for the span that it opens: a heading counts as context. -/
def Line.asSignature (l : Line) : Line :=
  if l.kind = .hunkHeader then ⟨.context, l.content⟩ else l

theorem Line.asSignature_of_isSource {l : Line} (h : l.kind.IsSource) : l.asSignature = l := by
  simp [Line.asSignature, h.ne_hunkHeader]

@[simp] theorem Line.content_asSignature (l : Line) : l.asSignature.content = l.content := by
  simp only [Line.asSignature]
  split <;> rfl

theorem Line.isSource_of_isEdit {l : Line} (h : l.isEdit = true) :
    l.kind = .added ∨ l.kind = .removed := by
  simp only [Line.isEdit, Bool.and_eq_true] at h
  cases hk : l.kind <;> simp [hk, Kind.isChange] at h ⊢

/-! ## Sums of braces -/

/-- Opening braces alone deepen the nesting. -/
theorem braceDelta_pos {s : List Char} (hopen : '{' ∈ s) (hclose : '}' ∉ s) :
    0 < braceDelta s := by
  have hcount : 0 < s.count '{' := List.count_pos_iff.mpr hopen
  rw [braceDelta, List.count_eq_zero_of_not_mem hclose]
  omega

theorem braceDelta_eq_zero {s : List Char} (hopen : '{' ∉ s) (hclose : '}' ∉ s) :
    braceDelta s = 0 := by
  rw [braceDelta, List.count_eq_zero_of_not_mem hopen, List.count_eq_zero_of_not_mem hclose]
  rfl

/-- The two sides of a change: the file before it and the file after it. -/
inductive Side
  | old
  | new
  deriving DecidableEq, Repr

theorem Side.exists_iff {P : Side → Prop} : (∃ side, P side) ↔ P .old ∨ P .new := by
  constructor
  · rintro ⟨side, h⟩
    cases side with
    | old => exact .inl h
    | new => exact .inr h
  · rintro (h | h)
    · exact ⟨.old, h⟩
    · exact ⟨.new, h⟩

theorem Side.forall_iff {P : Side → Prop} : (∀ side, P side) ↔ P .old ∧ P .new :=
  ⟨fun h => ⟨h .old, h .new⟩, fun h side => by cases side with
    | old => exact h.1
    | new => exact h.2⟩

/-- Whether lines of a kind stand on a side. The heading of a hunk stands on both, as lines of
context do. -/
def Side.has : Side → Kind → Bool
  | _, .context | _, .hunkHeader => true
  | .old, .removed => true
  | .new, .added => true
  | _, _ => false

/-- By how much the lines on a side deepen the nesting of braces. -/
def netBraces (side : Side) : List Line → Int
  | [] => 0
  | l :: ls => (if side.has l.kind then braceDelta l.content else 0) + netBraces side ls

@[simp] theorem netBraces_nil (side : Side) : netBraces side [] = 0 := rfl

theorem netBraces_singleton (side : Side) (l : Line) :
    netBraces side [l] = if side.has l.kind then braceDelta l.content else 0 :=
  Int.add_zero _

@[simp] theorem netBraces_append (side : Side) (ls ls' : List Line) :
    netBraces side (ls ++ ls') = netBraces side ls + netBraces side ls' := by
  induction ls with
  | nil => rw [List.nil_append, netBraces_nil, Int.zero_add]
  | cons l ls ih => rw [List.cons_append, netBraces, netBraces, ih, Int.add_assoc]

/-- Whether the braces of a side have been open after one of the lines. -/
def Side.Entered (side : Side) (lines : List Line) : Prop :=
  ∃ p, p <+: lines ∧ 0 < netBraces side p

/-- Whether a span that began with the first of the lines ends with the last one: it has been
entered on a side, and on no side on which it has been entered a brace is open. -/
def Closed (lines : List Line) : Prop :=
  (∃ side : Side, side.Entered lines) ∧
    ∀ side : Side, side.Entered lines → netBraces side lines ≤ 0

theorem Side.not_entered_nil (side : Side) : ¬ side.Entered [] := by
  rintro ⟨p, hp, h⟩
  rw [List.prefix_nil.mp hp] at h
  simp at h

theorem not_closed_nil : ¬ Closed [] := by
  rintro ⟨⟨side, h⟩, -⟩
  exact side.not_entered_nil h

/-- A side is entered at a line or has been before it. -/
theorem Side.entered_append_singleton (side : Side) (ls : List Line) (l : Line) :
    side.Entered (ls ++ [l]) ↔ side.Entered ls ∨ 0 < netBraces side (ls ++ [l]) := by
  simp only [Side.Entered, List.prefix_concat_iff]
  constructor
  · rintro ⟨p, rfl | hp, h⟩
    · exact .inr h
    · exact .inl ⟨p, hp, h⟩
  · rintro (⟨p, hp, h⟩ | h)
    · exact ⟨p, .inr hp, h⟩
    · exact ⟨_, .inl rfl, h⟩

/-! ## The counters of a span -/

/-- The depth of a side after some lines. -/
def Side.depth (side : Side) (lines : List Line) : Depth :=
  lines.foldl (fun d l => if side.has l.kind then d.add (braceDelta l.content) else d) {}

/-- The counter of a side counts the braces of each line of the side. -/
theorem Side.depth_append_singleton (side : Side) (ls : List Line) (l : Line) :
    side.depth (ls ++ [l]) =
      if side.has l.kind then (side.depth ls).add (braceDelta l.content) else side.depth ls := by
  simp [Side.depth]

/-- The depth of a side is the sum of its braces. -/
theorem Side.depth_depth (side : Side) (ls : List Line) :
    (side.depth ls).depth = netBraces side ls := by
  induction ls using List.reverseRecOn with
  | nil => rfl
  | append_singleton ls l ih =>
    rw [Side.depth_append_singleton, netBraces_append, netBraces_singleton]
    split <;> simp [Depth.add, ih]

/-- A side knows that it has been entered. -/
theorem Side.depth_entered (side : Side) (ls : List Line) :
    (side.depth ls).entered = true ↔ side.Entered ls := by
  induction ls using List.reverseRecOn with
  | nil => exact ⟨fun h => Bool.noConfusion h, fun h => absurd h side.not_entered_nil⟩
  | append_singleton ls l ih =>
    have hsum : netBraces side (ls ++ [l]) =
        netBraces side ls + if side.has l.kind then braceDelta l.content else 0 := by
      rw [netBraces_append, netBraces_singleton]
    rw [Side.depth_append_singleton, Side.entered_append_singleton, hsum]
    by_cases h : side.has l.kind
    · simp [h, Depth.add, ih, Side.depth_depth]
    · simp only [h, Bool.false_eq_true, ↓reduceIte, Int.add_zero, ih]
      -- a line that is not on the side leaves the sum alone, which has been counted already
      exact ⟨.inl, fun h => h.elim id fun h => ⟨ls, List.prefix_rfl, h⟩⟩

/-- The span after some lines, the first of which has opened it. -/
def Span.after (lines : List Line) : Span := .braces (Side.old.depth lines) (Side.new.depth lines)

/-- Counting a signature or a line of source text adds it to the lines that the span has seen. -/
theorem Span.observe_after (ls : List Line) {l : Line} (h : l.kind ≠ .metadata) :
    (Span.after ls).observe l.asSignature = Span.after (ls ++ [l]) := by
  cases hk : l.kind <;>
    simp_all [Span.observe, Span.after, Side.depth_append_singleton, Side.has, Line.asSignature]

/-- A counter is settled unless it has been entered and a brace is open. -/
theorem Depth.isSettled_iff (d : Depth) :
    d.isSettled = true ↔ (d.entered = true → d.depth ≤ 0) := by
  cases h : d.entered <;> simp [Depth.isSettled, h]

/-- A span is seen to end exactly where it does. -/
theorem Span.isClosed_after (ls : List Line) (l : Line) :
    (Span.after ls).isClosed l = true ↔ Closed ls := by
  simp only [Span.isClosed, Span.after, Bool.and_eq_true, Bool.or_eq_true, Depth.isSettled_iff,
    Side.depth_entered, Side.depth_depth, Closed, Side.exists_iff, Side.forall_iff, and_assoc]

/-- A line is inside an open span when a brace is open on one of the sides. -/
theorem Span.contains_after (ls : List Line) (l : Line) :
    (Span.after ls).contains l = true ↔ ∃ side, 0 < netBraces side ls := by
  simp only [Span.contains, Span.after, Bool.or_eq_true, decide_eq_true_eq, Side.depth_depth,
    Side.exists_iff]

/-- A line either closes the span or leaves it with the counters of one line more. -/
theorem Span.next?_after (ls : List Line) {l : Line} (h : l.kind ≠ .metadata) (span : Span) :
    (Span.after ls).next? l.asSignature = some span ↔
      ¬ Closed (ls ++ [l]) ∧ span = Span.after (ls ++ [l]) := by
  have hclosed := Span.isClosed_after (ls ++ [l]) l.asSignature
  simp only [Span.next?, Span.observe_after ls h]
  split
  · next hc => simp [hclosed.mp hc]
  · next hc =>
    have hopen : ¬ Closed (ls ++ [l]) := fun h => hc (hclosed.mpr h)
    simp [hopen, eq_comm]

/-! ## Following a span -/

/-- The span that a signature opens, after the lines of `body` unless one of them has ended it. -/
def Span.follow? (mode : SpanMode) (signature : Line) (body : List Line) : Option Span :=
  body.foldl (fun span? l => span?.bind (·.next? l)) (Span.open? mode signature)

theorem Span.follow?_append_singleton (mode : SpanMode) (o : Line) (body : List Line) (l : Line) :
    Span.follow? mode o (body ++ [l]) = (Span.follow? mode o body).bind (·.next? l) := by
  simp [Span.follow?]

/-- A span that is followed by its braces is open as long as no line has ended it, and then it has
counted all lines. -/
theorem Span.follow?_braces {o : Line} {body : List Line} (ho : o.kind ≠ .metadata)
    (hbody : ∀ l ∈ body, l.kind.IsSource) (span : Span) :
    Span.follow? .braces o.asSignature body = some span ↔
      (∀ p, p <+: o :: body → ¬ Closed p) ∧ span = Span.after (o :: body) := by
  induction body using List.reverseRecOn generalizing span with
  | nil =>
    have hopen : Span.follow? .braces o.asSignature [] = (Span.after []).next? o.asSignature := rfl
    rw [hopen, Span.next?_after [] ho span, List.nil_append, forall_prefix_cons_iff]
    simp [not_closed_nil]
  | append_singleton body l ih =>
    have hl : l.kind.IsSource := hbody l (by simp)
    have ih := ih fun l' h => hbody l' (by simp [h])
    have hnext := Span.next?_after (o :: body) hl.ne_metadata
    rw [Line.asSignature_of_isSource hl] at hnext
    rw [Span.follow?_append_singleton, Option.bind_eq_some_iff, ← List.cons_append,
      forall_prefix_concat_iff]
    constructor
    · rintro ⟨s, hs, h⟩
      obtain ⟨hopen, rfl⟩ := (ih s).mp hs
      obtain ⟨hlast, rfl⟩ := (hnext span).mp h
      exact ⟨⟨hopen, hlast⟩, rfl⟩
    · rintro ⟨⟨hopen, hlast⟩, rfl⟩
      exact ⟨Span.after (o :: body), (ih _).mpr ⟨hopen, rfl⟩, (hnext _).mpr ⟨hlast, rfl⟩⟩

/-- A span that is followed by indentation is open as long as no lone closing brace has come, and
remembers the indentation of its signature. -/
theorem Span.follow?_indentation (o : Line) (body : List Line) (span : Span) :
    Span.follow? .indentation o body = some span ↔
      (∀ l ∈ body, Text.trim l.content ≠ ['\x7D']) ∧
        span = .indentation (indentWidth o.content) := by
  induction body using List.reverseRecOn generalizing span with
  | nil => simp [Span.follow?, Span.open?, Span.start, eq_comm]
  | append_singleton body l ih =>
    rw [Span.follow?_append_singleton, Option.bind_eq_some_iff]
    simp only [ih, List.mem_append, List.mem_singleton, or_imp, forall_and, forall_eq]
    constructor
    · rintro ⟨s, ⟨hbody, rfl⟩, hnext⟩
      by_cases hl : Text.trim l.content = ['\x7D']
      · simp [Span.next?, Span.observe, Span.isClosed, hl] at hnext
      · refine ⟨⟨hbody, hl⟩, ?_⟩
        simpa [Span.next?, Span.observe, Span.isClosed, hl, eq_comm] using hnext
    · rintro ⟨⟨hbody, hl⟩, rfl⟩
      exact ⟨_, ⟨hbody, rfl⟩, by simp [Span.next?, Span.observe, Span.isClosed, hl]⟩

end TestImpact.Patch
