import TestImpact.Proofs.Results
import TestImpact.Table.Parser

/-!
# Rows and their numbers

The rows of a table carry the numbers of their lines, which grow from row to row, so the rows
before a row are those with smaller numbers. The two passes over a table are told here by numbers
alone: the first stops at the first row with an open quote (`splitRows_eq_error_iff`), the second
at the first row that does not fit the ones before it (`checkRows_eq_error_iff`).
-/

namespace TestImpact.Table

/-! ## Numbers -/

/-- Whether some rows stand in the order of their numbers. -/
def InOrder {α : Type} (rows : List (Nat × α)) : Prop := rows.Pairwise fun r r' => r.1 < r'.1

/-- The first of some rows in order stands before all others. -/
theorem InOrder.not_before_head {α : Type} {r r' : Nat × α} {rows : List (Nat × α)}
    (h : InOrder (r :: rows)) (hr' : r' ∈ r :: rows) : ¬ r'.1 < r.1 := by
  rcases List.mem_cons.mp hr' with rfl | hr'
  · exact Nat.lt_irrefl _
  · exact Nat.lt_asymm ((List.pairwise_cons.mp h).1 r' hr')

/-- Lines are numbered one after the other. -/
theorem mem_numberFrom {n k : Nat} {line : List Char} {ls : List (List Char)} :
    (k, line) ∈ numberFrom n ls ↔ ∃ i, k = n + i ∧ ls[i]? = some line := by
  induction ls generalizing n with
  | nil => simp [numberFrom]
  | cons l ls ih =>
    rw [numberFrom, List.mem_cons, ih, Prod.mk.injEq]
    constructor
    · rintro (⟨rfl, rfl⟩ | ⟨i, rfl, hi⟩)
      · exact ⟨0, rfl, rfl⟩
      · exact ⟨i + 1, by omega, hi⟩
    · rintro ⟨i, rfl, hi⟩
      cases i with
      | zero => exact .inl ⟨rfl, (Option.some.inj hi).symm⟩
      | succ i => exact .inr ⟨i, by omega, hi⟩

/-- Numbered lines are in order. -/
theorem inOrder_numberFrom (n : Nat) (ls : List (List Char)) : InOrder (numberFrom n ls) := by
  induction ls generalizing n with
  | nil => exact List.Pairwise.nil
  | cons l ls ih =>
    refine List.pairwise_cons.mpr ⟨?_, ih (n + 1)⟩
    rintro ⟨k, line⟩ hmem
    obtain ⟨i, rfl, -⟩ := mem_numberFrom.mp hmem
    show n < n + 1 + i
    omega

/-- Numbering changes no line. -/
theorem map_snd_numberFrom (n : Nat) (ls : List (List Char)) :
    (numberFrom n ls).map Prod.snd = ls := by
  induction ls generalizing n with
  | nil => rfl
  | cons l ls ih => rw [numberFrom, List.map_cons, ih]

/-- The lines of data are the trimmed lines that are neither blank nor comments. -/
theorem map_snd_dataLines (text : List Char) :
    (dataLines text).map Prod.snd =
      ((Text.lines (dropMark text)).map Text.trim).filter isData := by
  rw [← map_snd_numberFrom 1 ((Text.lines (dropMark text)).map Text.trim), List.filter_map]
  rfl

theorem inOrder_dataLines (text : List Char) : InOrder (dataLines text) :=
  (inOrder_numberFrom 1 _).filter _

/-! ## The first pass -/

section Splitting

variable {kind : Kind} {separator : Char}

/-- A row is split before the rows behind it. -/
theorem splitRows_cons (d : Nat × List Char) (data : List (Nat × List Char)) :
    splitRows kind separator (d :: data) =
      match splitFields? separator d.2 with
      | none => .error (.invalidRow kind d.1 .unterminatedQuote)
      | some fields => (splitRows kind separator data).map ((d.1, fields) :: ·) := by
  obtain ⟨n, line⟩ := d
  rw [splitRows, List.mapM_cons]
  cases hline : splitFields? separator line with
  | none => simp [hline, bind, Except.bind]
  | some fields =>
    simp only [hline, bind, Except.bind, pure, Except.pure]
    rw [splitRows]
    split <;> simp_all [Except.map]

/-- All rows can be split if no quote of any of them is left open. -/
theorem splitRows_eq_ok_iff {data : List (Nat × List Char)}
    {rows : List (Nat × List (List Char))} :
    splitRows kind separator data = .ok rows ↔
      (∀ d ∈ data, splitFields? separator d.2 ≠ none) ∧
        rows = data.map fun d => (d.1, (splitFields? separator d.2).getD []) := by
  induction data generalizing rows with
  | nil => simp [splitRows, pure, Except.pure, eq_comm]
  | cons d data ih =>
    rw [splitRows_cons, List.forall_mem_cons, List.map_cons]
    cases hline : splitFields? separator d.2 with
    | none => simp
    | some fields =>
      simp only [map_eq_ok_iff, ih, Option.getD_some, ne_eq, reduceCtorEq, not_false_eq_true,
        true_and]
      constructor
      · rintro ⟨_, ⟨hdata, rfl⟩, rfl⟩
        exact ⟨hdata, rfl⟩
      · rintro ⟨hdata, rfl⟩
        exact ⟨_, ⟨hdata, rfl⟩, rfl⟩

/-- Splitting stops at the first row with an open quote. -/
theorem splitRows_eq_error_iff {data : List (Nat × List Char)} (hdata : InOrder data)
    {e : TableError} :
    splitRows kind separator data = .error e ↔
      ∃ d ∈ data, splitFields? separator d.2 = none ∧
        (∀ d' ∈ data, d'.1 < d.1 → splitFields? separator d'.2 ≠ none) ∧
        e = .invalidRow kind d.1 .unterminatedQuote := by
  induction data with
  | nil => simp [splitRows, pure, Except.pure]
  | cons d data ih =>
    obtain ⟨hlater, hrest⟩ := List.pairwise_cons.mp hdata
    rw [splitRows_cons]
    cases hline : splitFields? separator d.2 with
    | none =>
      constructor
      · rintro ⟨⟩
        exact ⟨d, List.mem_cons_self, hline,
          fun d' hd' hlt => absurd hlt (hdata.not_before_head hd'), rfl⟩
      · rintro ⟨d', hd', -, hbefore, rfl⟩
        rcases List.mem_cons.mp hd' with rfl | hd'
        · rfl
        · exact absurd hline (hbefore d List.mem_cons_self (hlater d' hd'))
    | some fields =>
      show Except.map _ _ = _ ↔ _
      -- this row is closed, so the fault is that of a later one
      rw [map_eq_error_iff, ih hrest]
      constructor
      · rintro ⟨d', hd', hopen, hbefore, rfl⟩
        refine ⟨d', List.mem_cons_of_mem _ hd', hopen, fun d'' hd'' hlt => ?_, rfl⟩
        rcases List.mem_cons.mp hd'' with rfl | hd''
        · simp [hline]
        · exact hbefore d'' hd'' hlt
      · rintro ⟨d', hd', hopen, hbefore, rfl⟩
        rcases List.mem_cons.mp hd' with rfl | hd'
        · rw [hline] at hopen
          cases hopen
        · exact ⟨d', hd', hopen, fun d'' hd'' => hbefore d'' (List.mem_cons_of_mem _ hd''), rfl⟩

end Splitting

/-! ## The second pass -/

/-- The id of a row. -/
def firstField (fields : List (List Char)) : String := String.ofList (fields.head?.getD [])

/-- What a row has to say of its id. -/
def lastField (fields : List (List Char)) : String := String.ofList (fields.getLast?.getD [])

/-- Whether a row can stand in a table where some ids are taken. -/
structure Fits (kind : Kind) (taken : String → Prop) (fields : List (List Char)) : Prop where
  columns : kind.allows fields.length = true
  named : firstField fields ≠ ""
  fresh : ¬ taken (firstField fields)

/-- What is wrong with a row on a line of a table where some ids are taken. -/
inductive Misfit (kind : Kind) (taken : String → Prop) (line : Nat) (fields : List (List Char)) :
    TableError → Prop
  | columns : kind.allows fields.length = false →
      Misfit kind taken line fields (.invalidRow kind line (.columns fields.length))
  | emptyId : kind.allows fields.length = true → firstField fields = "" →
      Misfit kind taken line fields (.invalidRow kind line .emptyId)
  | repeatedId : kind.allows fields.length = true → firstField fields ≠ "" →
      taken (firstField fields) →
      Misfit kind taken line fields (.duplicateId kind (firstField fields) line)

/-- The ids that are taken before a line, by some ids or by the rows on the lines before. -/
def takenBefore (seen : List String) (rows : List (Nat × List (List Char))) (line : Nat)
    (id : String) : Prop :=
  id ∈ seen ∨ ∃ r ∈ rows, r.1 < line ∧ firstField r.2 = id

section Checking

variable {kind : Kind} {seen : List String} {r : Nat × List (List Char)}
  {rows : List (Nat × List (List Char))}

/-- A row that something is wrong with does not fit. -/
theorem Misfit.not_fits {taken : String → Prop} {line : Nat} {fields : List (List Char)}
    {e : TableError} (h : Misfit kind taken line fields e) : ¬ Fits kind taken fields := by
  intro hfits
  cases h with
  | columns hcolumns => exact absurd hfits.columns (by simp [hcolumns])
  | emptyId _ hempty => exact hfits.named hempty
  | repeatedId _ _ htaken => exact hfits.fresh htaken

/-- A row fits or there is something wrong with it. -/
theorem exists_misfit {taken : String → Prop} {fields : List (List Char)}
    (h : ¬ Fits kind taken fields) (line : Nat) : ∃ e, Misfit kind taken line fields e := by
  cases hcolumns : kind.allows fields.length with
  | false => exact ⟨_, .columns hcolumns⟩
  | true =>
    by_cases hnamed : firstField fields = ""
    · exact ⟨_, .emptyId hcolumns hnamed⟩
    · by_cases htaken : taken (firstField fields)
      · exact ⟨_, .repeatedId hcolumns hnamed htaken⟩
      · exact absurd ⟨hcolumns, hnamed, htaken⟩ h

/-- A row that fits is kept by its id and its last field, and its id is taken from then on. -/
theorem checkRows_of_fits (h : Fits kind (· ∈ seen) r.2) :
    checkRows kind seen (r :: rows) =
      (checkRows kind (firstField r.2 :: seen) rows).map ((firstField r.2, lastField r.2) :: ·) := by
  obtain ⟨n, fields⟩ := r
  have hnamed : (firstField fields).isEmpty = false := by simpa using h.named
  have hfresh : seen.contains (firstField fields) = false := by simpa using h.fresh
  rw [firstField] at hnamed hfresh
  simp only [checkRows, h.columns, Bool.not_true, Bool.false_eq_true, ↓reduceIte, hnamed, hfresh]
  rfl

/-- The first row that does not fit ends the check. -/
theorem checkRows_of_misfit {e : TableError} (h : Misfit kind (· ∈ seen) r.1 r.2 e) :
    checkRows kind seen (r :: rows) = .error e := by
  obtain ⟨n, fields⟩ := r
  cases h with
  | columns hcolumns => simp [checkRows, hcolumns]
  | emptyId hcolumns hempty =>
    rw [firstField] at hempty
    simp [checkRows, hcolumns, hempty]
  | repeatedId hcolumns hnamed htaken =>
    rw [firstField] at hnamed htaken
    have hnamed : (String.ofList (fields.head?.getD [])).isEmpty = false := by simpa using hnamed
    simp [checkRows, hcolumns, hnamed, htaken, firstField]

/-- Before the first row only those ids are taken that were taken at the start. -/
theorem takenBefore_head (hrows : InOrder (r :: rows)) :
    takenBefore seen (r :: rows) r.1 = (· ∈ seen) := by
  funext id
  refine propext ⟨?_, .inl⟩
  rintro (hseen | ⟨r', hr', hlt, -⟩)
  · exact hseen
  · exact absurd hlt (hrows.not_before_head hr')

/-- Before a later row the id of the first row is taken too. -/
theorem takenBefore_tail (hrows : InOrder (r :: rows)) {r' : Nat × List (List Char)}
    (hr' : r' ∈ rows) :
    takenBefore seen (r :: rows) r'.1 = takenBefore (firstField r.2 :: seen) rows r'.1 := by
  obtain ⟨hlater, -⟩ := List.pairwise_cons.mp hrows
  funext id
  apply propext
  constructor
  · rintro (hseen | ⟨r'', hr'', hlt, hid⟩)
    · exact .inl (List.mem_cons_of_mem _ hseen)
    · rcases List.mem_cons.mp hr'' with rfl | hr''
      · exact .inl (hid ▸ List.mem_cons_self)
      · exact .inr ⟨r'', hr'', hlt, hid⟩
  · rintro (hseen | ⟨r'', hr'', hlt, hid⟩)
    · rcases List.mem_cons.mp hseen with rfl | hseen
      · exact .inr ⟨r, List.mem_cons_self, hlater r' hr', rfl⟩
      · exact .inl hseen
    · exact .inr ⟨r'', List.mem_cons_of_mem _ hr'', hlt, hid⟩

/-- The rows of a table are kept if each of them fits. -/
theorem checkRows_eq_ok_iff (hrows : InOrder rows) {kept : List (String × String)} :
    checkRows kind seen rows = .ok kept ↔
      (∀ r ∈ rows, Fits kind (takenBefore seen rows r.1) r.2) ∧
        kept = rows.map fun r => (firstField r.2, lastField r.2) := by
  induction rows generalizing seen kept with
  | nil => simp [checkRows, eq_comm]
  | cons r rows ih =>
    have hrest := (List.pairwise_cons.mp hrows).2
    -- the first row hands its id over to the ids that are taken before the others
    have htail : (∀ r' ∈ rows, Fits kind (takenBefore seen (r :: rows) r'.1) r'.2) ↔
        ∀ r' ∈ rows, Fits kind (takenBefore (firstField r.2 :: seen) rows r'.1) r'.2 :=
      forall₂_congr fun r' hr' => by rw [takenBefore_tail hrows hr']
    rw [List.forall_mem_cons, takenBefore_head hrows, htail, List.map_cons]
    by_cases hfits : Fits kind (· ∈ seen) r.2
    · rw [checkRows_of_fits hfits, map_eq_ok_iff]
      constructor
      · rintro ⟨kept, hkept, rfl⟩
        obtain ⟨hall, rfl⟩ := (ih hrest).mp hkept
        exact ⟨⟨hfits, hall⟩, rfl⟩
      · rintro ⟨⟨-, hall⟩, rfl⟩
        exact ⟨_, (ih hrest).mpr ⟨hall, rfl⟩, rfl⟩
    · obtain ⟨e, he⟩ := exists_misfit hfits r.1
      rw [checkRows_of_misfit he]
      simp [hfits]

/-- Checking stops at the first row that does not fit. -/
theorem checkRows_eq_error_iff (hrows : InOrder rows) {e : TableError} :
    checkRows kind seen rows = .error e ↔
      ∃ r ∈ rows, (∀ r' ∈ rows, r'.1 < r.1 → Fits kind (takenBefore seen rows r'.1) r'.2) ∧
        Misfit kind (takenBefore seen rows r.1) r.1 r.2 e := by
  -- along the rows: what is taken before a row is what was taken at first and the ids above it
  induction rows generalizing seen with
  | nil => simp [checkRows]
  | cons r rows ih =>
    obtain ⟨hlater, hrest⟩ := List.pairwise_cons.mp hrows
    by_cases hfits : Fits kind (· ∈ seen) r.2
    · rw [checkRows_of_fits hfits, map_eq_error_iff, ih hrest]
      constructor
      · rintro ⟨r', hr', hbefore, he⟩
        rw [← takenBefore_tail hrows hr'] at he
        refine ⟨r', List.mem_cons_of_mem _ hr', fun r'' hr'' hlt => ?_, he⟩
        rcases List.mem_cons.mp hr'' with rfl | hr''
        · rw [takenBefore_head hrows]
          exact hfits
        · rw [takenBefore_tail hrows hr'']
          exact hbefore r'' hr'' hlt
      · rintro ⟨r', hr', hbefore, he⟩
        rcases List.mem_cons.mp hr' with rfl | hr'
        · rw [takenBefore_head hrows] at he
          exact absurd hfits he.not_fits
        · rw [takenBefore_tail hrows hr'] at he
          refine ⟨r', hr', fun r'' hr'' hlt => ?_, he⟩
          rw [← takenBefore_tail hrows hr'']
          exact hbefore r'' (List.mem_cons_of_mem _ hr'') hlt
    · -- the first row is where checking stops, and no row stands before it
      obtain ⟨e', he'⟩ := exists_misfit hfits r.1
      rw [checkRows_of_misfit he']
      constructor
      · rintro ⟨⟩
        refine ⟨r, List.mem_cons_self,
          fun r' hr' hlt => absurd hlt (hrows.not_before_head hr'), ?_⟩
        rw [takenBefore_head hrows]
        exact he'
      · rintro ⟨r', hr', hbefore, he⟩
        rcases List.mem_cons.mp hr' with rfl | hr'
        · rw [takenBefore_head hrows] at he
          have hstop : checkRows kind seen (r' :: rows) = .error e' := checkRows_of_misfit he'
          rw [← hstop, checkRows_of_misfit he]
        · have hfirst := hbefore r List.mem_cons_self (hlater r' hr')
          rw [takenBefore_head hrows] at hfirst
          exact absurd hfirst hfits

end Checking

end TestImpact.Table
