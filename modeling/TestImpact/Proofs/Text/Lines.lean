import Mathlib.Data.List.Induction
import Mathlib.Data.List.TakeWhile
import TestImpact.Proofs.Lists
import TestImpact.Proofs.Text.Pieces
import TestImpact.Text.Blank
import TestImpact.Text.Lines

/-!
# Lines and words of a written text

Texts that are put together from lines or from words fall apart into them again: lines that are
ended by line feeds (`lines_unlines`), words with blanks after them (`words_append`). A text without
blanks is one word and has nothing to trim.
-/

namespace TestImpact.Text

/-! ## Texts without blanks -/

/-- Whether a text has no blank at its start and none at its end. -/
def Tight (s : List Char) : Prop :=
  (∀ c ∈ s.head?, isBlank c = false) ∧ ∀ c ∈ s.getLast?, isBlank c = false

-- the characters are finitely many, but they should not be tried one by one
instance : DecidablePred Tight := fun s =>
  decidable_of_iff (s.head?.all (! isBlank ·) = true ∧ s.getLast?.all (! isBlank ·) = true)
    (by simp [Tight, Option.all_eq_true])

theorem tight_append {s t : List Char} (hs : Tight s) (ht : Tight t) : Tight (s ++ t) := by
  constructor
  · intro c hc
    rw [List.head?_append] at hc
    rcases Option.or_eq_some_iff.mp hc with hc | ⟨-, hc⟩
    · exact hs.1 c hc
    · exact ht.1 c hc
  · intro c hc
    rw [List.getLast?_append] at hc
    rcases Option.or_eq_some_iff.mp hc with hc | ⟨-, hc⟩
    · exact ht.2 c hc
    · exact hs.2 c hc

/-- Trimming leaves a text alone that has no blank at its ends. -/
theorem Tight.trim_eq {s : List Char} (h : Tight s) : trim s = s := by
  have hdrop : ∀ t : List Char, (∀ c ∈ t.head?, isBlank c = false) →
      t.dropWhile isBlank = t := by
    intro t ht
    cases t with
    | nil => rfl
    | cons c t => rw [List.dropWhile_cons_of_neg (by simp [ht c rfl])]
  have hlast : ∀ c ∈ s.reverse.head?, isBlank c = false := by
    rw [List.head?_reverse]
    exact h.2
  rw [trim, trimStart, hdrop s h.1, trimEnd, hdrop _ hlast, List.reverse_reverse]

/-- A blank at the end of a text is trimmed. -/
theorem trim_concat {b : Char} (hb : isBlank b = true) (s : List Char) :
    trim (s ++ [b]) = trim s := by
  by_cases hs : s.dropWhile isBlank = []
  · simp [trim, trimStart, trimEnd, List.dropWhile_append, hs, hb]
  · simp [trim, trimStart, trimEnd, List.dropWhile_append, hs, hb]

/-- Nothing is left of a text only if it has nothing but blanks. -/
theorem trim_eq_nil_iff {s : List Char} : trim s = [] ↔ ∀ c ∈ s, isBlank c = true := by
  rw [trim, trimEnd, List.reverse_eq_nil_iff, List.dropWhile_eq_nil_iff]
  constructor
  · intro h
    rw [← List.dropWhile_eq_nil_iff, ← trimStart]
    by_contra hne
    have hhead : isBlank ((trimStart s).head hne) = false := List.head_dropWhile_not isBlank hne
    rw [h _ (List.mem_reverse.mpr (List.head_mem hne))] at hhead
    cases hhead
  · intro h c hc
    exact h c ((List.dropWhile_sublist _).subset (List.mem_reverse.mp hc))

/-- Blanks around a text are trimmed. -/
theorem trim_surrounded {before after : List Char} (hbefore : ∀ c ∈ before, isBlank c = true)
    (hafter : ∀ c ∈ after, isBlank c = true) (s : List Char) :
    trim (before ++ s ++ after) = trim s := by
  induction after using List.reverseRecOn with
  | nil =>
    rw [List.append_nil, trim, trimStart, List.dropWhile_append_of_pos hbefore]
    rfl
  | append_singleton after c ih =>
    rw [← List.append_assoc, trim_concat (hafter c (by simp)),
      ih fun c hc => hafter c (by simp [hc])]

/-- Trimming adds nothing. -/
theorem mem_of_mem_trim {c : Char} {s : List Char} (h : c ∈ trim s) : c ∈ s := by
  rw [trim, trimEnd, List.mem_reverse] at h
  have hstart : c ∈ trimStart s := List.mem_reverse.mp ((List.dropWhile_sublist _).subset h)
  exact (List.dropWhile_sublist _).subset hstart

/-- Whether a text has no blank in it. -/
def Unbroken (s : List Char) : Prop := ∀ c ∈ s, isBlank c = false

instance : DecidablePred Unbroken := fun s => List.decidableBAll (fun c => isBlank c = false) s

theorem unbroken_append {s t : List Char} : Unbroken (s ++ t) ↔ Unbroken s ∧ Unbroken t :=
  List.forall_mem_append

theorem unbroken_cons {c : Char} {s : List Char} :
    Unbroken (c :: s) ↔ isBlank c = false ∧ Unbroken s :=
  List.forall_mem_cons

theorem Unbroken.tight {s : List Char} (h : Unbroken s) : Tight s :=
  ⟨fun c hc => h c (List.mem_of_head? hc), fun c hc => h c (List.mem_of_getLast? hc)⟩

/-- Trimming leaves a text without blanks alone. -/
theorem Unbroken.trim_eq {s : List Char} (h : Unbroken s) : trim s = s := h.tight.trim_eq

/-! ## Lines -/

/-- Whether a text lies within one line. -/
def OneLine (s : List Char) : Prop := '\n' ∉ s ∧ '\r' ∉ s

instance : DecidablePred OneLine := fun s => inferInstanceAs (Decidable ('\n' ∉ s ∧ '\r' ∉ s))

/-- Some lines, each of them ended by a line feed. -/
def unlines (ls : List (List Char)) : List Char := ls.flatMap (· ++ ['\n'])

theorem oneLine_append {s t : List Char} : OneLine (s ++ t) ↔ OneLine s ∧ OneLine t := by
  simp only [OneLine, List.mem_append, not_or]
  exact ⟨fun h => ⟨⟨h.1.1, h.2.1⟩, h.1.2, h.2.2⟩, fun h => ⟨⟨h.1.1, h.2.1⟩, h.1.2, h.2.2⟩⟩

theorem oneLine_cons {c : Char} {s : List Char} : OneLine (c :: s) ↔ OneLine [c] ∧ OneLine s :=
  oneLine_append (s := [c])

theorem Unbroken.oneLine {s : List Char} (h : Unbroken s) : OneLine s :=
  ⟨fun hc => absurd (h _ hc) (by decide), fun hc => absurd (h _ hc) (by decide)⟩

@[simp] theorem unlines_append (ls ls' : List (List Char)) :
    unlines (ls ++ ls') = unlines ls ++ unlines ls' := by
  simp [unlines]

/-- What is written line by line. -/
theorem toList_join_unlines {α : Type} {write : α → String} {line : α → List Char}
    (h : ∀ x, (write x).toList = line x ++ ['\n']) (xs : List α) :
    (String.join (xs.map write)).toList = unlines (xs.map line) := by
  rw [String.toList_join, unlines, List.flatMap_map, List.flatMap_map]
  simp only [h]

/-- Different lines are written differently. -/
theorem unlines_inj :
    ∀ {ls ls' : List (List Char)}, (∀ l ∈ ls, '\n' ∉ l) → (∀ l ∈ ls', '\n' ∉ l) →
      unlines ls = unlines ls' → ls = ls'
  | [], [], _, _, _ => rfl
  | [], l' :: ls', _, _, h => by simp [unlines] at h
  | l :: ls, [], _, _, h => by simp [unlines] at h
  | l :: ls, l' :: ls', hls, hls', h => by
    simp only [unlines, List.flatMap_cons, List.append_assoc, List.singleton_append] at h
    obtain ⟨rfl, hrest⟩ := append_cons_inj_of_first (hls l (by simp)) (hls' l' (by simp)) h
    rw [unlines_inj (fun m hm => hls m (by simp [hm])) (fun m hm => hls' m (by simp [hm])) hrest]

/-- The first line of a text reaches to the first line feed. -/
theorem linesFrom_append (front l rest : List Char) (h : '\n' ∉ l) :
    linesFrom front (l ++ '\n' :: rest) = finishLine (l.reverse ++ front) :: lines rest := by
  induction l generalizing front with
  | nil => simp [linesFrom, lines]
  | cons c l ih =>
    have hc : c ≠ '\n' := fun hc => h (by simp [hc])
    rw [List.cons_append, linesFrom, if_neg hc, ih _ fun hl => h (by simp [hl])]
    simp

theorem finishLine_reverse {l : List Char} (h : l.getLast? ≠ some '\r') :
    finishLine l.reverse = l := by
  rw [← List.head?_reverse] at h
  cases hl : l.reverse with
  | nil => simpa [finishLine] using (congrArg List.reverse hl).symm
  | cons c r =>
    have hc : c ≠ '\r' := by
      rintro rfl
      exact h (by rw [hl]; rfl)
    have hcases : finishLine (c :: r) = (c :: r).reverse := by
      simp [finishLine, hc]
    rw [hcases, ← hl, List.reverse_reverse]

/-- A carriage return at the end of a line is a blank that would be trimmed. -/
theorem trim_finishLine (l : List Char) : trim (finishLine l.reverse) = trim l := by
  induction l using List.reverseRecOn with
  | nil => rfl
  | append_singleton l c =>
    by_cases hc : c = '\r'
    · subst hc
      have hfinish : finishLine (l ++ ['\r']).reverse = l := by simp [finishLine]
      rw [hfinish, trim_concat (by decide)]
    · rw [finishLine_reverse (by simp [hc])]

/-- Finishing a line takes characters off and adds none. -/
theorem finishLine_sublist (l : List Char) : (finishLine l).Sublist l.reverse := by
  rw [finishLine.eq_def]
  split
  · rw [List.reverse_cons]
    exact List.sublist_append_left _ _
  · exact List.Sublist.refl _

theorem mem_of_mem_finishLine {c : Char} {l : List Char} (h : c ∈ finishLine l) : c ∈ l :=
  List.mem_reverse.mp ((finishLine_sublist l).subset h)

/-- The lines hold the characters of the text in their order, without the line ends. -/
theorem flatten_linesFrom_sublist (front s : List Char) :
    (linesFrom front s).flatten.Sublist (front.reverse ++ s) := by
  induction s generalizing front with
  | nil =>
    rw [linesFrom]
    split <;> simp
  | cons c s ih =>
    rw [linesFrom]
    split
    · rw [List.flatten_cons]
      exact (finishLine_sublist front).append ((ih []).cons c)
    · simpa using ih (c :: front)

/-- The lines have no characters but those of the text, in the same order. -/
theorem flatten_lines_sublist (s : List Char) : (lines s).flatten.Sublist s :=
  flatten_linesFrom_sublist [] s

theorem not_mem_linesFrom {front : List Char} (hfront : '\n' ∉ front) :
    ∀ {s : List Char}, ∀ l ∈ linesFrom front s, '\n' ∉ l
  | [], l, hl => by
    rw [linesFrom] at hl
    split at hl
    · cases hl
    · rw [List.mem_singleton.mp hl, List.mem_reverse]
      exact hfront
  | c :: s, l, hl => by
    rw [linesFrom] at hl
    split at hl
    · rcases List.mem_cons.mp hl with rfl | hl
      · exact fun hc => hfront (mem_of_mem_finishLine hc)
      · exact not_mem_linesFrom List.not_mem_nil l hl
    · next hc => exact not_mem_linesFrom (by simp [Ne.symm hc, hfront]) l hl

/-- No line has a line feed in it. -/
theorem not_mem_lines (s : List Char) : ∀ l ∈ lines s, '\n' ∉ l :=
  not_mem_linesFrom List.not_mem_nil

/-- Written lines are read as the lines that they are. A carriage return within a line stays where
it is, but one at its end would be lost. -/
theorem lines_unlines_of_getLast? {ls : List (List Char)}
    (h : ∀ l ∈ ls, '\n' ∉ l ∧ l.getLast? ≠ some '\r') : lines (unlines ls) = ls := by
  induction ls with
  | nil => rfl
  | cons l ls ih =>
    obtain ⟨hfeed, hreturn⟩ := h l (by simp)
    have hcons : unlines (l :: ls) = l ++ '\n' :: unlines ls := by simp [unlines]
    rw [lines, hcons, linesFrom_append [] l _ hfeed, List.append_nil, finishLine_reverse hreturn,
      ih fun l' h' => h l' (by simp [h'])]

/-- Written lines are trimmed to the same texts as they are, wherever carriage returns stand. -/
theorem map_trim_lines_unlines {ls : List (List Char)} (h : ∀ l ∈ ls, '\n' ∉ l) :
    (lines (unlines ls)).map trim = ls.map trim := by
  induction ls with
  | nil => rfl
  | cons l ls ih =>
    have hcons : unlines (l :: ls) = l ++ '\n' :: unlines ls := by simp [unlines]
    rw [lines, hcons, linesFrom_append [] l _ (h l (by simp)), List.append_nil, List.map_cons,
      List.map_cons, trim_finishLine, ih fun l' h' => h l' (by simp [h'])]

/-- Lines written one below the other are read back. -/
theorem lines_unlines {ls : List (List Char)} (h : ∀ l ∈ ls, OneLine l) :
    lines (unlines ls) = ls :=
  lines_unlines_of_getLast? fun l hl =>
    ⟨(h l hl).1, fun hlast => (h l hl).2 (List.mem_of_getLast? hlast)⟩

/-- Whether a text is made of whole lines: it is empty or ends with a line feed. -/
def WholeLines (s : List Char) : Prop := s = [] ∨ ['\n'] <:+ s

instance : DecidablePred WholeLines := fun s =>
  inferInstanceAs (Decidable (s = [] ∨ ['\n'] <:+ s))

theorem wholeLines_flatten {ss : List (List Char)} (h : ∀ s ∈ ss, WholeLines s) :
    WholeLines ss.flatten := by
  induction ss using List.reverseRecOn with
  | nil => exact .inl rfl
  | append_singleton ss s ih =>
    rw [List.flatten_concat]
    obtain rfl | hs := h s (by simp)
    · rw [List.append_nil]
      exact ih fun s' h' => h s' (by simp [h'])
    · exact .inr (hs.trans (List.suffix_append _ s))

theorem wholeLines_unlines (ls : List (List Char)) : WholeLines (unlines ls) := by
  rw [unlines, List.flatMap_def]
  apply wholeLines_flatten
  intro l hl
  obtain ⟨l, -, rfl⟩ := List.mem_map.mp hl
  exact .inr (List.suffix_append _ _)

theorem wholeLines_append {s t : List Char} (hs : WholeLines s) (ht : WholeLines t) :
    WholeLines (s ++ t) := by
  have h : ∀ u ∈ [s, t], WholeLines u := by simp [hs, ht]
  simpa using wholeLines_flatten h

/-- What follows whole lines begins a line of its own. -/
theorem lines_append {s : List Char} (h : WholeLines s) (rest : List Char) :
    lines (s ++ rest) = lines s ++ lines rest := by
  obtain rfl | ⟨t, rfl⟩ := h
  · rfl
  · have hfrom : ∀ front, linesFrom front (t ++ ['\n'] ++ rest) =
        linesFrom front (t ++ ['\n']) ++ lines rest := by
      induction t with
      | nil => intro front; simp [linesFrom, lines]
      | cons c t ih =>
        intro front
        rw [List.cons_append, List.cons_append, linesFrom, linesFrom]
        split
        · rw [ih, List.cons_append]
        · exact ih (c :: front)
    exact hfrom []

theorem not_mem_unlines {ls : List (List Char)} (h : ∀ l ∈ ls, OneLine l) :
    '\r' ∉ unlines ls := by
  simp only [unlines, List.mem_flatMap, List.mem_append, List.mem_singleton, not_exists, not_and,
    not_or]
  exact fun l hl => ⟨(h l hl).2, by decide⟩

/-! ## Words -/

section Words

variable {p : Char → Bool}

theorem wordsFrom_append (front : List Char) :
    ∀ {w : List Char}, (∀ c ∈ w, p c = false) → ∀ rest,
      wordsFrom p front (w ++ rest) = wordsFrom p (w.reverse ++ front) rest
  | [], _, rest => rfl
  | c :: w, h, rest => by
    have hc : p c = false := h c (by simp)
    rw [List.cons_append, wordsFrom, if_neg (by simp [hc]),
      wordsFrom_append (c :: front) (fun c' h' => h c' (by simp [h'])) rest]
    simp

theorem wordsFrom_ne_nil {front : List Char} (h : front ≠ []) (s : List Char) :
    wordsFrom p front s ≠ [] := by
  induction s generalizing front with
  | nil => simp [wordsFrom, h]
  | cons c s ih =>
    rw [wordsFrom]
    split
    · simp [h]
    · exact ih (by simp)

/-- A text that does not begin with a blank has a first word. -/
theorem words_cons_ne_nil {c : Char} (hc : p c = false) (s : List Char) :
    words p (c :: s) ≠ [] := by
  rw [words, wordsFrom, if_neg (by simp [hc])]
  exact wordsFrom_ne_nil (by simp) s

/-- No word reaches over a blank. -/
theorem words_append_blank {b : Char} (hb : p b = true) (s rest : List Char) :
    words p (s ++ b :: rest) = words p s ++ words p rest := by
  have hfrom : ∀ front, wordsFrom p front (s ++ b :: rest) =
      wordsFrom p front s ++ words p rest := by
    induction s with
    | nil =>
      intro front
      rw [List.nil_append, wordsFrom.eq_2, if_pos hb, wordsFrom.eq_1]
      cases front <;> rfl
    | cons c s ih =>
      intro front
      rw [List.cons_append, wordsFrom, wordsFrom]
      split
      · split
        · exact ih []
        · rw [ih [], List.cons_append]
      · exact ih (c :: front)
  exact hfrom []

/-- A text without blanks is one word. -/
theorem words_of_not_blank {w : List Char} (hne : w ≠ []) (hw : ∀ c ∈ w, p c = false) :
    words p w = [w] := by
  have h := wordsFrom_append (p := p) [] hw []
  rw [List.append_nil] at h
  rw [words, h, wordsFrom, if_neg (by simpa using hne)]
  simp

/-- A word that a blank ends is the first word of a text. -/
theorem words_append {w rest : List Char} {b : Char} (hne : w ≠ []) (hw : ∀ c ∈ w, p c = false)
    (hb : p b = true) : words p (w ++ b :: rest) = w :: words p rest := by
  rw [words_append_blank hb, words_of_not_blank hne hw]
  rfl

end Words

end TestImpact.Text
