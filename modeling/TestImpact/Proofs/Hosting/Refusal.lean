import Mathlib.Data.Nat.Find
import TestImpact.Hosting.Client
import TestImpact.Proofs.Text.Lines

/-!
# Bodies of refusals

The service may refuse a request with a body of any length, of which 512 bytes are kept at the most.
The search for the place to cut goes back from there, byte by byte. The places where it may stop are
the lengths of the starts of the text (`isBoundary_iff`), and it stops at the last of them
(`lastBoundary_eq_findGreatest`), so the longest start that fits is kept. The character behind it
does not fit and has four bytes at the most: the search is over after three steps
(`checkStatus_refusal`).
-/

namespace TestImpact.Hosting

/-- `p` is the longest start of `b` that takes at most `limit` bytes. -/
structure IsLongestStart (limit : Nat) (b p : String) : Prop where
  start : p.toList <+: b.toList
  fits : p.utf8ByteSize ≤ limit
  longest : ∀ q : String, q.toList <+: b.toList → q.utf8ByteSize ≤ limit → q.toList <+: p.toList

/-- A search that goes back from byte `limit` of `b` passes places within characters, and stops at
`cut`, between two characters. -/
structure StopsAt (limit : Nat) (b : String) (cut : Nat) : Prop where
  le : cut ≤ limit
  isValid : (⟨cut⟩ : String.Pos.Raw).IsValid b
  passed : ∀ k, cut < k → k ≤ limit → ¬ (⟨k⟩ : String.Pos.Raw).IsValid b

/-! ## Lengths in bytes -/

@[simp] theorem byteLength_nil : byteLength [] = 0 := rfl

@[simp] theorem byteLength_cons (c : Char) (s : List Char) :
    byteLength (c :: s) = c.utf8Size + byteLength s := rfl

@[simp] theorem byteLength_append (s t : List Char) :
    byteLength (s ++ t) = byteLength s + byteLength t := by
  induction s with
  | nil => simp
  | cons c s ih => simp [ih, Nat.add_assoc]

theorem utf8ByteSize_ofList (s : List Char) : (String.ofList s).utf8ByteSize = byteLength s := by
  induction s with
  | nil => rfl
  | cons c s ih => simp [ih]

theorem byteLength_toList (s : String) : byteLength s.toList = s.utf8ByteSize := by
  rw [← utf8ByteSize_ofList, String.ofList_toList]

theorem byteLength_le_of_prefix {p s : List Char} (h : p <+: s) : byteLength p ≤ byteLength s := by
  obtain ⟨rest, rfl⟩ := h
  rw [byteLength_append]
  exact Nat.le_add_right _ _

/-! ## Places between characters -/

/-- The places between characters are the lengths of the starts of a text. -/
theorem isBoundary_iff {n : Nat} {s : List Char} :
    isBoundary n s = true ↔ ∃ p, p <+: s ∧ byteLength p = n := by
  induction s generalizing n with
  | nil => cases n <;> simp [isBoundary]
  | cons c s ih =>
    cases n with
    | zero => simpa [isBoundary] using ⟨[], List.nil_prefix, byteLength_nil⟩
    | succ n =>
      rw [isBoundary, Bool.and_eq_true, decide_eq_true_eq, ih]
      constructor
      · rintro ⟨hle, p, hp, hn⟩
        refine ⟨c :: p, List.cons_prefix_cons.mpr ⟨rfl, hp⟩, ?_⟩
        rw [byteLength_cons]
        omega
      · rintro ⟨p, hp, hn⟩
        rcases List.prefix_cons_iff.mp hp with rfl | ⟨p', rfl, hp'⟩
        · simp at hn
        · rw [byteLength_cons] at hn
          exact ⟨by omega, p', hp', by omega⟩

/-- These are the valid positions in a text. -/
theorem isBoundary_toList_iff {n : Nat} {s : String} :
    isBoundary n s.toList = true ↔ (⟨n⟩ : String.Pos.Raw).IsValid s := by
  rw [isBoundary_iff, String.Pos.Raw.isValid_iff_exists_append]
  constructor
  · rintro ⟨p, ⟨rest, hs⟩, rfl⟩
    refine ⟨String.ofList p, String.ofList rest, ?_, ?_⟩
    · rw [← String.ofList_append, hs, String.ofList_toList]
    · rw [String.Pos.Raw.ext_iff]
      exact (utf8ByteSize_ofList p).symm
  · rintro ⟨p, rest, rfl, hn⟩
    refine ⟨p.toList, ?_, ?_⟩
    · rw [String.toList_append]
      exact List.prefix_append _ _
    · rw [byteLength_toList]
      exact (String.Pos.Raw.ext_iff.mp hn).symm

/-! ## The search -/

/-- Going back byte by byte finds the last place between characters. -/
theorem lastBoundary_eq_findGreatest (s : List Char) (n : Nat) :
    lastBoundary s n = Nat.findGreatest (fun k => isBoundary k s = true) n := by
  induction n with
  | zero => rfl
  | succ n ih => rw [lastBoundary, Nat.findGreatest, ih]

theorem isBoundary_lastBoundary (s : List Char) (n : Nat) :
    isBoundary (lastBoundary s n) s = true := by
  rw [lastBoundary_eq_findGreatest]
  -- byte 0 is a place between characters, whatever the text
  have hzero : isBoundary 0 s = true := by cases s <;> rfl
  exact Nat.findGreatest_spec (P := fun k => isBoundary k s = true) (Nat.zero_le n) hzero

theorem lastBoundary_le (s : List Char) (n : Nat) : lastBoundary s n ≤ n := by
  rw [lastBoundary_eq_findGreatest]
  exact Nat.findGreatest_le n

/-- No boundary within the limit comes after the last one. -/
theorem le_lastBoundary {k n : Nat} {s : List Char} (hle : k ≤ n) (hk : isBoundary k s = true) :
    k ≤ lastBoundary s n := by
  rw [lastBoundary_eq_findGreatest]
  exact Nat.le_findGreatest hle hk

theorem stopsAt_lastBoundary (limit : Nat) (b : String) :
    StopsAt limit b (lastBoundary b.toList limit) where
  le := lastBoundary_le _ _
  isValid := isBoundary_toList_iff.mp (isBoundary_lastBoundary _ _)
  passed k hlt hle hk := by
    have hk := le_lastBoundary hle (isBoundary_toList_iff.mpr hk)
    omega

/-! ## What is kept -/

theorem takeBytes_prefix (limit : Nat) (s : List Char) : takeBytes limit s <+: s := by
  induction s generalizing limit with
  | nil => exact List.prefix_rfl
  | cons c s ih =>
    rw [takeBytes]
    split
    · exact List.cons_prefix_cons.mpr ⟨rfl, ih _⟩
    · exact List.nil_prefix

/-- What is kept has no more bytes than the limit. -/
theorem byteLength_takeBytes_le (limit : Nat) (s : List Char) :
    byteLength (takeBytes limit s) ≤ limit := by
  induction s generalizing limit with
  | nil => exact Nat.zero_le limit
  | cons c s ih =>
    rw [takeBytes]
    split
    · next hfits =>
      have hrest := ih (limit - c.utf8Size)
      rw [byteLength_cons]
      omega
    · exact Nat.zero_le limit

/-- Every start that fits is kept. -/
theorem prefix_takeBytes {limit : Nat} {q s : List Char} (hq : q <+: s)
    (hle : byteLength q ≤ limit) : q <+: takeBytes limit s := by
  induction s generalizing limit q with
  | nil => exact hq
  | cons c s ih =>
    rcases List.prefix_cons_iff.mp hq with rfl | ⟨q', rfl, hq'⟩
    · exact List.nil_prefix
    · rw [byteLength_cons] at hle
      rw [takeBytes, if_pos (by omega)]
      exact List.cons_prefix_cons.mpr ⟨rfl, ih hq' (by omega)⟩

/-- A text that is cut between two characters has as many bytes as are asked for. -/
theorem byteLength_takeBytes {n : Nat} {s : List Char} (h : isBoundary n s = true) :
    byteLength (takeBytes n s) = n := by
  obtain ⟨p, hp, rfl⟩ := isBoundary_iff.mp h
  apply Nat.le_antisymm (byteLength_takeBytes_le _ _)
  exact byteLength_le_of_prefix (prefix_takeBytes hp le_rfl)

/-- Cutting at the last place between characters leaves the longest start that fits. -/
theorem isLongestStart_takeBytes (limit : Nat) (b : String) :
    IsLongestStart limit b (String.ofList (takeBytes (lastBoundary b.toList limit) b.toList)) where
  start := by
    rw [String.toList_ofList]
    exact takeBytes_prefix _ _
  fits := by
    rw [utf8ByteSize_ofList, byteLength_takeBytes (isBoundary_lastBoundary _ _)]
    exact lastBoundary_le _ _
  longest q hq hle := by
    rw [String.toList_ofList]
    apply prefix_takeBytes hq
    rw [← byteLength_toList] at hle
    exact le_lastBoundary hle (isBoundary_iff.mpr ⟨_, hq, rfl⟩)

/-- The character behind the longest start does not fit, so the start falls short of the limit by
three bytes at the most. -/
theorem IsLongestStart.limit_le {limit : Nat} {b p : String} (h : IsLongestStart limit b p)
    (hlong : limit < b.utf8ByteSize) : limit ≤ p.utf8ByteSize + 3 := by
  obtain ⟨rest, hb⟩ := h.start
  rw [← byteLength_toList, ← hb] at hlong
  have hfits := h.fits
  rw [← byteLength_toList] at hfits ⊢
  cases rest with
  | nil =>
    rw [List.append_nil] at hlong
    omega
  | cons c rest =>
    have hsize : c.utf8Size ≤ 4 := c.utf8Size_le_four
    have hpos : 0 < c.utf8Size := c.utf8Size_pos
    by_contra hshort
    have hnext : (String.ofList (p.toList ++ [c])).toList <+: b.toList := by
      rw [String.toList_ofList, ← hb]
      exact ⟨rest, by simp⟩
    have hnextFits : (String.ofList (p.toList ++ [c])).utf8ByteSize ≤ limit := by
      rw [utf8ByteSize_ofList, byteLength_append, byteLength_cons, byteLength_nil]
      omega
    have hle := byteLength_le_of_prefix (h.longest _ hnext hnextFits)
    rw [String.toList_ofList, byteLength_append, byteLength_cons, byteLength_nil] at hle
    omega

/-! ## Refusals -/

/-- **Bodies of refusals are cut safely and as late as possible.** Whenever the status is not one of
success, the status is kept together with the trimmed body `b`. A body of at most 512 bytes is kept
as it is. Of a longer one, its longest start `p` of at most 512 bytes is kept, with three dots
behind it. It is cut where the search from byte 512 backwards stops. This is between two characters
and at byte 509 or behind it, so the search never comes near the start of the body, and what is kept
takes at most 515 bytes. -/
theorem checkStatus_refusal {code : Nat} (hcode : ¬ (200 ≤ code ∧ code < 300)) (body : String) :
    let b := String.ofList (Text.trim body.toList)
    (b.utf8ByteSize ≤ 512 → checkStatus code body = .error (.status code b)) ∧
      (512 < b.utf8ByteSize → ∃ p,
        checkStatus code body = .error (.status code (p ++ "...")) ∧
        IsLongestStart 512 b p ∧ 509 ≤ p.utf8ByteSize ∧
        lastBoundary b.toList 512 = p.utf8ByteSize ∧ StopsAt 512 b p.utf8ByteSize ∧
        (p ++ "...").utf8ByteSize ≤ 515) := by
  intro b
  have hcut : cutBody body.toList =
      if 512 < b.utf8ByteSize then takeBytes (lastBoundary b.toList 512) b.toList ++ ['.', '.', '.']
      else b.toList := by
    rw [utf8ByteSize_ofList, String.toList_ofList]
    rfl
  rw [checkStatus, if_neg hcode, hcut]
  constructor
  · intro hshort
    rw [if_neg (Nat.not_lt.mpr hshort), String.ofList_toList]
  · intro hlong
    have hstart := isLongestStart_takeBytes 512 b
    have hsize : (String.ofList (takeBytes (lastBoundary b.toList 512) b.toList)).utf8ByteSize =
        lastBoundary b.toList 512 := by
      rw [utf8ByteSize_ofList, byteLength_takeBytes (isBoundary_lastBoundary _ _)]
    -- the start is as long as it can be, so less than one character is missing to the limit
    have hlimit := hstart.limit_le hlong
    have hfits := hstart.fits
    refine ⟨_, ?_, hstart, by omega, hsize.symm, ?_, ?_⟩
    · rw [if_pos hlong, String.ofList_append]
    · rw [hsize]
      exact stopsAt_lastBoundary 512 b
    · have hdots : ("...").utf8ByteSize = 3 := rfl
      rw [String.utf8ByteSize_append, hdots]
      omega

/-- Euro signs, each of which takes three bytes. -/
def euroSigns : List Char := List.replicate 171 '€'

/-- An answer of characters of three bytes each: what is told of it ends before the limit. -/
theorem checkStatus_refusal_euroSigns : ¬ (200 ≤ 502 ∧ 502 < 300) ∧
    ∃ p : String, checkStatus 502 (String.ofList euroSigns) = .error (.status 502 (p ++ "...")) ∧
      p.utf8ByteSize = 510 := by
  have hunbroken : Text.Unbroken euroSigns := by
    intro c hc
    rw [List.eq_of_mem_replicate hc]
    decide
  have htrim : Text.trim (String.ofList euroSigns).toList = euroSigns := by
    rw [String.toList_ofList, hunbroken.trim_eq]
  have hlong : 512 < (String.ofList (Text.trim (String.ofList euroSigns).toList)).utf8ByteSize := by
    rw [utf8ByteSize_ofList, htrim]
    decide +kernel
  have hcode : ¬ (200 ≤ 502 ∧ 502 < 300) := by decide
  obtain ⟨p, hkept, -, -, hsize, -⟩ :=
    (checkStatus_refusal hcode (String.ofList euroSigns)).2 hlong
  refine ⟨hcode, p, hkept, ?_⟩
  rw [← hsize, String.toList_ofList, htrim]
  decide +kernel

end TestImpact.Hosting
