import TestImpact.Proofs.Patch.Scan
import TestImpact.Proofs.Text.Lines

/-!
# The counters of an open span

A span that is followed by its braces has two counters, one for each side of the change. After any
lines of a patch, the counters of the open span are those of the lines since it was opened
(`Detector.exists_sinceOpened`), and these lines have not closed it. From this follows what the
counters know of each other (`CountersAgree`): a brace is open on some side exactly if some side has
been entered, so a span that is closed on both sides is not kept. No counter is further from zero
than the lines have braces, so none leaves the range of 64 bits on a patch that fits in memory
(`counters_agree`).
-/

namespace TestImpact.Patch

/-! ## Numbers of braces -/

/-- How many braces a text has. -/
def bracesIn (s : List Char) : Nat := s.count '{' + s.count '}'

/-- How many braces the texts of some lines have. -/
def braceCount : List Line → Nat
  | [] => 0
  | l :: ls => bracesIn l.content + braceCount ls

@[simp] theorem braceCount_nil : braceCount [] = 0 := rfl

@[simp] theorem braceCount_cons (l : Line) (ls : List Line) :
    braceCount (l :: ls) = bracesIn l.content + braceCount ls := rfl

@[simp] theorem braceCount_append (ls ls' : List Line) :
    braceCount (ls ++ ls') = braceCount ls + braceCount ls' := by
  induction ls with
  | nil => simp
  | cons l ls ih => rw [List.cons_append, braceCount_cons, braceCount_cons, ih, Nat.add_assoc]

theorem bracesIn_append (s t : List Char) : bracesIn (s ++ t) = bracesIn s + bracesIn t := by
  simp only [bracesIn, List.count_append]
  omega

theorem bracesIn_le_of_sublist {s t : List Char} (h : s.Sublist t) : bracesIn s ≤ bracesIn t :=
  Nat.add_le_add (h.count_le _) (h.count_le _)

theorem bracesIn_le_length (s : List Char) : bracesIn s ≤ s.length := by
  induction s with
  | nil => rfl
  | cons c s ih =>
    simp only [bracesIn, List.count_cons, List.length_cons, beq_iff_eq] at ih ⊢
    by_cases hopen : c = '{'
    · simp [hopen]
      omega
    · simp only [hopen, if_false]
      split <;> omega

theorem natAbs_braceDelta_le (s : List Char) : (braceDelta s).natAbs ≤ bracesIn s := by
  rw [braceDelta, bracesIn]
  omega

/-- Lines deepen the nesting by their braces at most, in either direction. -/
theorem natAbs_netBraces_le (side : Side) (ls : List Line) :
    (netBraces side ls).natAbs ≤ braceCount ls := by
  induction ls with
  | nil => simp
  | cons l ls ih =>
    have hl := natAbs_braceDelta_le l.content
    rw [netBraces, braceCount_cons]
    split <;> omega

/-! ## Lines since a span was opened -/

/-- The lines since the span of a method was opened: the first of them opens it, and no other
resets the walk. -/
def Detector.SinceOpened (d : Detector) (m : String) (read seen : List Line) : Prop :=
  seen <:+ read ∧
    ∃ opener body, seen = opener :: body ∧ d.Opens m opener ∧ ∀ l ∈ body, ¬ d.Resets l

/-- Metadata stand on no side. -/
theorem Side.depth_filter_metadata (side : Side) (ls : List Line) :
    side.depth (ls.filter (·.kind ≠ .metadata)) = side.depth ls := by
  induction ls using List.reverseRecOn with
  | nil => rfl
  | append_singleton ls l ih =>
    rw [List.filter_append, Side.depth_append_singleton]
    by_cases hk : l.kind = .metadata
    · have hside : side.has l.kind = false := by
        rw [hk]
        cases side <;> rfl
      rw [List.filter_cons_of_neg (by simpa using hk), List.filter_nil, List.append_nil, ih, hside]
      rfl
    · rw [List.filter_cons_of_pos (by simpa using hk), List.filter_nil,
        Side.depth_append_singleton, ih]

theorem Span.after_filter_metadata (ls : List Line) :
    Span.after (ls.filter (·.kind ≠ .metadata)) = Span.after ls := by
  rw [Span.after, Span.after, Side.depth_filter_metadata, Side.depth_filter_metadata]

theorem closed_filter_metadata (ls : List Line) :
    Closed (ls.filter (·.kind ≠ .metadata)) ↔ Closed ls := by
  have hlast : Line := ⟨.context, []⟩
  rw [← Span.isClosed_after _ hlast, Span.after_filter_metadata, Span.isClosed_after]

namespace Detector

variable {d : Detector} {m : String} {span : Span}

/-- The open span has counted the lines since it was opened, and they have not closed it. -/
theorem exists_sinceOpened (hmode : d.options.spanMode = .braces) {read : List Line}
    (h : (d.run {} read).current = some (m, span)) :
    ∃ seen, d.SinceOpened m read seen ∧ ¬ Closed seen ∧ span = Span.after seen := by
  rw [← run_filter_metadata] at h
  obtain ⟨before, opener, body, hread, hopens, hbody, hfollow⟩ :=
    (current_run fun l hl => by simpa using (List.mem_filter.mp hl).2).mp h
  have hkind : ∀ l ∈ body, l.kind.IsSource := by
    intro l hl
    have hmem : l ∈ read.filter (·.kind ≠ .metadata) := by
      rw [hread]
      simp [hl]
    exact isSource_of_not_resets (by simpa using (List.mem_filter.mp hmem).2) (hbody l hl)
  rw [hmode, Span.follow?_braces hopens.1 hkind] at hfollow
  obtain ⟨hopen, rfl⟩ := hfollow
  -- metadata among the lines change nothing of this
  obtain ⟨front, rest, rfl, -, hrest⟩ := List.filter_eq_append_iff.mp hread
  obtain ⟨gap, body', rfl, -, -, rfl⟩ := List.filter_eq_cons_iff.mp hrest
  have hseen : (opener :: body').filter (·.kind ≠ .metadata) =
      opener :: body'.filter (·.kind ≠ .metadata) :=
    List.filter_cons_of_pos (by simpa using hopens.1)
  refine ⟨opener :: body', ⟨?_, opener, body', rfl, hopens, ?_⟩, ?_, ?_⟩
  · exact ⟨front ++ gap, by simp⟩
  · intro l hl
    by_cases hk : l.kind = .metadata
    · rintro (⟨n, hn, -⟩ | hheader)
      · exact hn hk
      · rw [hk] at hheader
        cases hheader
    · exact hbody l (List.mem_filter.mpr ⟨hl, by simpa using hk⟩)
  · rw [← closed_filter_metadata, hseen]
    exact hopen _ List.prefix_rfl
  · rw [← Span.after_filter_metadata (opener :: body'), hseen]

end Detector

/-! ## What the counters know of each other -/

/-- The counters of an open span, `seen` being the lines since it was opened. -/
structure CountersAgree (seen : List Line) (old new : Depth) : Prop where
  /-- No brace is open on a side that has not been entered. -/
  depth_nonpos : ∀ c ∈ [old, new], c.entered = false → c.depth ≤ 0
  /-- A span that has been entered is not kept when both sides are closed. -/
  open_iff_entered : (∃ c ∈ [old, new], 0 < c.depth) ↔ ∃ c ∈ [old, new], c.entered = true
  /-- A line is inside the span as soon as a side has been entered. -/
  contains_eq : ∀ l, (Span.braces old new).contains l = (old.entered || new.entered)
  natAbs_le : ∀ c ∈ [old, new], c.depth.natAbs ≤ braceCount seen

theorem Side.entered_of_pos {side : Side} {ls : List Line} (h : 0 < netBraces side ls) :
    side.Entered ls :=
  ⟨ls, List.prefix_rfl, h⟩

/-- As long as some lines have not closed the span, a brace is open exactly if a side has been
entered. -/
theorem exists_pos_iff_entered {seen : List Line} (h : ¬ Closed seen) :
    (∃ side, 0 < netBraces side seen) ↔ ∃ side : Side, side.Entered seen := by
  constructor
  · rintro ⟨side, hpos⟩
    exact ⟨side, Side.entered_of_pos hpos⟩
  · intro hentered
    by_contra hnone
    -- entered and open on no side: these lines would have closed the span
    exact h ⟨hentered, fun side _ => Int.not_lt.mp fun hpos => hnone ⟨side, hpos⟩⟩

/-- The two counters are those of the two sides. -/
theorem exists_counter_iff {P : Depth → Prop} (seen : List Line) :
    (∃ c ∈ [Side.old.depth seen, Side.new.depth seen], P c) ↔
      ∃ side : Side, P (side.depth seen) := by
  simp [Side.exists_iff]

theorem forall_counter_iff {P : Depth → Prop} (seen : List Line) :
    (∀ c ∈ [Side.old.depth seen, Side.new.depth seen], P c) ↔
      ∀ side : Side, P (side.depth seen) := by
  simp [Side.forall_iff]

/-- The counters of a span that has not been closed agree. -/
theorem countersAgree_after {seen : List Line} (h : ¬ Closed seen) :
    CountersAgree seen (Side.old.depth seen) (Side.new.depth seen) where
  depth_nonpos := by
    rw [forall_counter_iff]
    intro side hside
    rw [Side.depth_depth]
    by_contra hpos
    have hentered := (side.depth_entered seen).mpr (Side.entered_of_pos (Int.not_le.mp hpos))
    rw [hside] at hentered
    cases hentered
  open_iff_entered := by
    rw [exists_counter_iff, exists_counter_iff]
    simp only [Side.depth_depth, Side.depth_entered]
    exact exists_pos_iff_entered h
  contains_eq l := by
    have hcontains : (Span.after seen).contains l = true ↔ ∃ side : Side, side.Entered seen :=
      (Span.contains_after seen l).trans (exists_pos_iff_entered h)
    rw [Bool.eq_iff_iff, Bool.or_eq_true, Side.depth_entered, Side.depth_entered]
    exact hcontains.trans Side.exists_iff
  natAbs_le := by
    rw [forall_counter_iff]
    intro side
    rw [Side.depth_depth]
    exact natAbs_netBraces_le side seen

/-! ## Braces of a patch -/

theorem heading_sublist (s : List Char) : (heading s).Sublist s := by
  unfold heading
  split
  · exact List.nil_sublist s
  · next text hcut => exact (List.sublist_cons_self _ _).trans (Text.suffix_of_cutAt? hcut).sublist
  · next hcut => exact (Text.suffix_of_cutAt? hcut).sublist

theorem content_read_sublist (s : List Char) : (Line.read s).content.Sublist s := by
  unfold Line.read
  split
  · exact ((heading_sublist _).cons _).cons _
  · split
    · exact List.nil_sublist s
    · split
      · exact List.nil_sublist _
      all_goals simp

theorem content_ofText_sublist (s : List Char) : (Line.ofText s).content.Sublist s := by
  rw [Line.ofText]
  split
  · exact (content_read_sublist _).trans (List.dropLast_sublist s)
  · exact content_read_sublist s

/-- The lines of a patch have no more braces than the patch. -/
theorem braceCount_map_ofText_le (ls : List (List Char)) :
    braceCount (ls.map .ofText) ≤ bracesIn ls.flatten := by
  induction ls with
  | nil => rfl
  | cons l ls ih =>
    rw [List.map_cons, braceCount_cons, List.flatten_cons, bracesIn_append]
    exact Nat.add_le_add (bracesIn_le_of_sublist (content_ofText_sublist l)) ih

/-- Reading the lines of a patch makes no braces. -/
theorem braceCount_linesOf_le (patch : List Char) : braceCount (linesOf patch) ≤ bracesIn patch :=
  (braceCount_map_ofText_le _).trans (bracesIn_le_of_sublist (Text.flatten_lines_sublist patch))

/-! ## The range of the counters -/

/-- The first natural number that a counter of 64 bits does not hold. -/
def range64 : Nat := 9223372036854775808

/-- The integers that a counter of 64 bits holds. -/
def Fits64 (n : Int) : Prop := -range64 ≤ n ∧ n < range64

/-- No addition to a counter leaves the range of 64 bits: neither when the braces of a line are
summed up, nor when the sum is added to the counters of a span that the line opens or to those of
the span that is open before it. -/
structure Detector.CountsInRange (d : Detector) (patch : List Char) : Prop where
  sums : ∀ l ∈ linesOf patch, ∀ p, p <+: l.content → Fits64 (braceDelta p)
  opened : ∀ l ∈ linesOf patch, l.kind ≠ .metadata → ∀ old new,
    (Span.start .braces l.content).observe l.asSignature = .braces old new →
      Fits64 old.depth ∧ Fits64 new.depth
  followed : ∀ read l, read ++ [l] <+: linesOf patch → l.kind.IsSource → ∀ m span old new,
    (d.run {} read).current = some (m, span) → span.observe l = .braces old new →
      Fits64 old.depth ∧ Fits64 new.depth

/-- What is bounded by the braces of a patch fits, as long as the patch does. -/
theorem fits64_of_natAbs_le {n : Int} {patch : List Char} (hpatch : patch.length < range64)
    (h : n.natAbs ≤ braceCount (linesOf patch)) : Fits64 n := by
  have hlines := braceCount_linesOf_le patch
  have hlength := bracesIn_le_length patch
  rw [Fits64]
  omega

/-- Lines that stand together deepen the nesting by the braces of the patch at most. -/
theorem natAbs_netBraces_le_of_isInfix {ls lines : List Line} (h : ls <:+: lines) (side : Side) :
    (netBraces side ls).natAbs ≤ braceCount lines := by
  obtain ⟨before, after, rfl⟩ := h
  have hle := natAbs_netBraces_le side ls
  rw [braceCount_append, braceCount_append]
  omega

theorem natAbs_braceDelta_le_of_mem {l : Line} {lines : List Line} (hl : l ∈ lines)
    {p : List Char} (hp : p <+: l.content) : (braceDelta p).natAbs ≤ braceCount lines := by
  obtain ⟨before, after, rfl⟩ := List.append_of_mem hl
  have hprefix := bracesIn_le_of_sublist hp.sublist
  have hle := natAbs_braceDelta_le p
  rw [braceCount_append, braceCount_cons]
  omega

/-- The counters of a span that has counted some lines of the patch, one after the other, are in
range. -/
theorem fits64_of_after {patch : List Char} (hpatch : patch.length < range64) {seen : List Line}
    (hseen : seen <:+: linesOf patch) {old new : Depth} (h : Span.after seen = .braces old new) :
    Fits64 old.depth ∧ Fits64 new.depth := by
  have hside : ∀ side : Side, Fits64 (side.depth seen).depth := by
    intro side
    rw [Side.depth_depth]
    exact fits64_of_natAbs_le hpatch (natAbs_netBraces_le_of_isInfix hseen side)
  rw [Span.after, Span.braces.injEq] at h
  exact ⟨h.1 ▸ hside .old, h.2 ▸ hside .new⟩

/-- No counter leaves its range on the way through a patch. -/
theorem Detector.countsInRange {d : Detector} (hmode : d.options.spanMode = .braces)
    {patch : List Char} (hpatch : patch.length < range64) : d.CountsInRange patch where
  sums l hl p hp := fits64_of_natAbs_le hpatch (natAbs_braceDelta_le_of_mem hl hp)
  opened l hl hk old new h := by
    have hspan : (Span.start .braces l.content).observe l.asSignature = Span.after ([] ++ [l]) :=
      Span.observe_after [] hk
    rw [hspan] at h
    exact fits64_of_after hpatch ((List.singleton_infix_iff _ _).mpr hl) h
  followed read l hread hk m span old new hcur h := by
    obtain ⟨seen, ⟨⟨before, rfl⟩, -⟩, -, rfl⟩ := exists_sinceOpened hmode hcur
    obtain ⟨after, hafter⟩ := hread
    have hspan := Span.observe_after seen hk.ne_metadata
    rw [Line.asSignature_of_isSource hk] at hspan
    rw [hspan] at h
    exact fits64_of_after hpatch ⟨before, after, by simpa using hafter⟩ h

/-- **The counters of an open span.** After any lines of a patch, the two counters of the span that
is open have counted the lines since it was opened. A side that has not been entered has no open
brace; some side has an open brace exactly if some side has been entered, so a span is inside its
body once it has been entered and is never kept with both sides closed; and no counter is further
from zero than these lines have braces. On a patch of less than 2⁶³ characters no addition to a
counter leaves the range of 64 bits. -/
theorem counters_agree (d : Detector) (hmode : d.options.spanMode = .braces) (patch : List Char) :
    (∀ read, read <+: linesOf patch → ∀ m span, (d.run {} read).current = some (m, span) →
      ∃ seen old new, d.SinceOpened m read seen ∧ span = .braces old new ∧
        CountersAgree seen old new) ∧
    (patch.length < range64 → d.CountsInRange patch) := by
  refine ⟨fun read _ m span hcur => ?_, Detector.countsInRange hmode⟩
  obtain ⟨seen, hseen, hopen, rfl⟩ := Detector.exists_sinceOpened hmode hcur
  exact ⟨seen, _, _, hseen, rfl, countersAgree_after hopen⟩

/-- A hunk in which the two sides open different numbers of braces and close as many. -/
def unevenHunk : List Char :=
  "@@ -3,3 +3,3 @@ void run() \x7B\n-  if (a) \x7B\n+  while (b) \x7B \x7B\n   \x7D\x7D\n".toList

/-- A hunk that opens one more brace on the new side: the old side is closed, the span is still
open. -/
theorem counters_agree_unevenHunk :
    ({} : Detector).options.spanMode = .braces ∧
    (({} : Detector).run {} (linesOf unevenHunk)).current =
      some ("run", .braces ⟨0, true⟩ ⟨1, true⟩) ∧
    (∃ seen, ({} : Detector).SinceOpened "run" (linesOf unevenHunk) seen ∧
      CountersAgree seen ⟨0, true⟩ ⟨1, true⟩) ∧
    unevenHunk.length < range64 ∧ ({} : Detector).CountsInRange unevenHunk := by
  have hcur : (({} : Detector).run {} (linesOf unevenHunk)).current =
      some ("run", .braces ⟨0, true⟩ ⟨1, true⟩) := by decide +kernel
  have hlength : unevenHunk.length < range64 := by decide
  obtain ⟨hagree, hrange⟩ := counters_agree {} rfl unevenHunk
  obtain ⟨seen, old, new, hseen, hspan, hcounters⟩ := hagree _ List.prefix_rfl _ _ hcur
  cases hspan
  exact ⟨rfl, hcur, ⟨seen, hseen, hcounters⟩, hlength, hrange hlength⟩

end TestImpact.Patch
