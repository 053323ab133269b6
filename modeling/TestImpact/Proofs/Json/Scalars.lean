import TestImpact.Json.Parser

/-!
# Strings and integers in JSON texts

What the writer makes of a string or an integer is read back as it was. A string ends at its quote,
since every quote inside is escaped (`readString_quote`). An integer has no end of its own, so that
it is read back only where no part of a number follows (`EndsNumber`).
-/

namespace TestImpact.Json

/-! ## Strings -/

theorem hexValue?_digitChar : ∀ {k : Nat}, k < 16 → Text.hexValue? (Nat.digitChar k) = some k := by
  decide

/-- The escape of a control character tells its code point. -/
theorem codeUnit?_control {n : Nat} (h : n < 32) :
    codeUnit? '0' '0' (Nat.digitChar (n / 16)) (Nat.digitChar (n % 16)) = some n := by
  have hhigh := hexValue?_digitChar (k := n / 16) (by omega)
  have hlow := hexValue?_digitChar (k := n % 16) (by omega)
  have hzero : Text.hexValue? '0' = some 0 := by decide
  simp only [codeUnit?, Text.hexNumber?, Text.hexNumberFrom?, hzero, hhigh, hlow, Option.bind_some]
  congr 1
  omega

/-- No control character is half of a pair. -/
theorem StringState.pushUnit_control (st : StringState) {n : Nat} (h : n < 32) :
    st.pushUnit n = st.push (Char.ofNat n) := by
  have hhigh : ¬ (0xD800 ≤ n ∧ n < 0xDC00) := by omega
  have hlow : ¬ (0xDC00 ≤ n ∧ n < 0xE000) := by omega
  rw [pushUnit]
  split
  · next high hhalf => simp [push, hhalf, hlow]
  · simp [hhigh, hlow]

/-- A character that is written is pushed, be it escaped or not. -/
theorem readString_escapeChar (st : StringState) (c : Char) (rest : List Char) :
    readString st (escapeChar c ++ rest) = readString (st.push c) rest := by
  unfold escapeChar
  split
  -- the short escapes
  iterate 7 rfl
  · next hquote hslash _ _ _ _ _ =>
    split
    · next hcontrol =>
      have hcontrol : c.toNat < 32 := hcontrol
      simp only [List.cons_append, List.nil_append, readString, codeUnit?_control hcontrol,
        st.pushUnit_control hcontrol, Char.ofNat_toNat]
    · next hcontrol =>
      -- a character that is not escaped is neither a quote nor a backslash
      have hcontrol : ¬ c.toNat < 32 := hcontrol
      rw [List.singleton_append, readString.eq_def]
      split
      · next heq => cases heq
      · next heq => exact absurd (List.cons.inj heq).1 hslash
      · next heq => exact absurd (List.cons.inj heq).1 hslash
      · next heq =>
        obtain ⟨rfl, rfl⟩ := List.cons.inj heq
        rw [if_neg hquote, if_neg (by simpa [hcontrol] using hslash)]

theorem foldl_push (s : List Char) : ∀ before : List Char,
    s.foldl StringState.push ⟨some before, none⟩ = ⟨some (s.reverse ++ before), none⟩ := by
  induction s with
  | nil => exact fun _ => rfl
  | cons c s ih =>
    intro before
    have hpush : StringState.push ⟨some before, none⟩ c = ⟨some (c :: before), none⟩ := rfl
    rw [List.foldl_cons, hpush, ih]
    simp

/-- **Strings are read back.** -/
theorem readString_quote (s rest : List Char) :
    readString {} (s.flatMap escapeChar ++ '"' :: rest) = some (some (String.ofList s), rest) := by
  have hread : ∀ st : StringState, readString st (s.flatMap escapeChar ++ '"' :: rest) =
      some ((s.foldl StringState.push st).result, rest) := by
    induction s with
    | nil => intro st; simp [readString]
    | cons c s ih =>
      intro st
      rw [List.flatMap_cons, List.append_assoc, readString_escapeChar, ih, List.foldl_cons]
  rw [hread, foldl_push]
  simp [StringState.result]

/-! ## Integers -/

/-- Whether no character that could belong to a number begins a text. -/
def EndsNumber : List Char → Prop
  | [] => True
  | c :: _ => c.isDigit = false ∧ c ≠ '.' ∧ c ≠ 'e' ∧ c ≠ 'E'

theorem isDigit_of_mem_digits {n : Nat} {c : Char} (h : c ∈ digits n) : c.isDigit = true :=
  Nat.isDigit_of_mem_toDigits (by decide) (by decide) h

/-- The only number that begins with a zero is zero. -/
theorem eq_zero_of_head?_digits {n : Nat} (h : (digits n).head? = some '0') : n = 0 := by
  induction n using Nat.strongRecOn with
  | ind n ih =>
    by_cases hn : n < 10
    · have hzero : ∀ k, k < 10 → Nat.digitChar k = '0' → k = 0 := by decide
      rw [digits, Nat.toDigits_of_lt_base hn] at h
      exact hzero n hn (by simpa using h)
    · -- the first digit is that of the tenth part, which is not zero
      have hfirst : (digits n).head? = (digits (n / 10)).head? := by
        rw [digits, Nat.toDigits_of_base_le (by decide) (by omega), digits]
        cases hds : Nat.toDigits 10 (n / 10) with
        | nil => exact absurd hds Nat.toDigits_ne_nil
        | cons d ds => rfl
      have htenth := ih (n / 10) (by omega) (hfirst ▸ h)
      omega

/-- The digits of a number are read up to where the number ends. -/
theorem digits1_digits {n : Nat} {rest : List Char} (h : EndsNumber rest) :
    digits1 (digits n ++ rest) = some (digits n, rest) := by
  have hdigits : ∀ c ∈ digits n, c.isDigit = true := fun c => isDigit_of_mem_digits
  have htake : rest.takeWhile Char.isDigit = [] := by
    cases rest with
    | nil => rfl
    | cons c rest => simp [h.1]
  have hdrop : rest.dropWhile Char.isDigit = rest := by
    cases rest with
    | nil => rfl
    | cons c rest => simp [h.1]
  rw [digits1, List.takeWhile_append_of_pos hdigits, List.dropWhile_append_of_pos hdigits, htake,
    hdrop, List.append_nil]
  split
  · next hnil => exact absurd hnil Nat.toDigits_ne_nil
  · rfl

/-- The digits of a number are read as its whole part, and nothing follows it. -/
theorem readNumber_digits (negative : Bool) {n : Nat} {rest : List Char} (h : EndsNumber rest) :
    readNumber negative (digits n ++ rest) = some (⟨negative, digits n, none, none⟩, rest) := by
  have hlead : (digits n).head? = some '0' → (digits n).length = 1 := by
    intro hzero
    rw [eq_zero_of_head?_digits hzero]
    rfl
  have hwhole : wholePart (digits n ++ rest) = some (digits n, rest) := by
    simpa [wholePart, digits1_digits h] using hlead
  have hfraction : fractionPart rest = some (none, rest) := by
    unfold fractionPart
    split
    · next tail => exact absurd rfl h.2.1
    · rfl
  have hexponent : exponentPart rest = some (none, rest) := by
    cases rest with
    | nil => rfl
    | cons c rest => simp [exponentPart, h.2.2]
  simp [readNumber, hwhole, hfraction, hexponent]

/-- Digits that 64 bits hold are added up exactly. -/
theorem foldl_addWhole {ds : List Char} : ∀ {n : Nat},
    Decimal.valueFrom n ds ≤ NumberText.maxWord →
      ds.foldl NumberText.Leading.addWhole { significand := n } =
        { significand := Decimal.valueFrom n ds } := by
  have hle : ∀ (ds : List Char) (n : Nat), n ≤ Decimal.valueFrom n ds := by
    intro ds
    induction ds with
    | nil => exact fun n => Nat.le_refl n
    | cons d ds ih =>
      intro n
      have h := ih (10 * n + (d.toNat - '0'.toNat))
      have hcons : Decimal.valueFrom n (d :: ds) =
          Decimal.valueFrom (10 * n + (d.toNat - '0'.toNat)) ds := rfl
      omega
  induction ds with
  | nil => exact fun _ => rfl
  | cons d ds ih =>
    intro n h
    have hnext : 10 * n + NumberText.digitValue d ≤ NumberText.maxWord := Nat.le_trans (hle ds _) h
    rw [List.foldl_cons, NumberText.Leading.addWhole]
    simp only [Bool.not_false, Bool.true_and, decide_eq_true hnext, if_true]
    exact ih h

theorem value?_digits {n : Nat} (h : n < Decimal.bound64) :
    NumberText.value? ⟨false, digits n, none, none⟩ = some (.integer n) := by
  have hvalue : Decimal.valueFrom 0 (digits n) = n := Nat.ofDigitChars_ten_toDigits
  have hword : Decimal.valueFrom 0 (digits n) ≤ NumberText.maxWord := by
    rw [hvalue]
    exact Nat.le_sub_one_of_lt h
  simp [NumberText.value?, foldl_addWhole hword, hvalue]

theorem value?_negative {n : Nat} (hpos : 0 < n) (h : n ≤ 9223372036854775808) :
    NumberText.value? ⟨true, digits n, none, none⟩ = some (.integer (-n)) := by
  have hvalue : Decimal.valueFrom 0 (digits n) = n := Nat.ofDigitChars_ten_toDigits
  have hword : Decimal.valueFrom 0 (digits n) ≤ NumberText.maxWord := by
    rw [hvalue]
    exact Nat.le_trans h (by decide)
  have hrange : ¬ (n = 0 ∨ 9223372036854775808 < n) := by omega
  simp [NumberText.value?, foldl_addWhole hword, hvalue, hrange]

end TestImpact.Json
