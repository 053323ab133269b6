import TestImpact.Pattern.Syntax

/-!
# Characters of a class

Which characters the classes of a pattern have.
-/

namespace TestImpact

/-- The white space of ASCII. -/
def isAsciiBlank (c : Char) : Bool := c = ' ' || ('\t' ≤ c && c ≤ '\r')

variable {c d : Char}

/-- The characters of words by their code points. -/
theorem isWordChar_iff : isWordChar c = true ↔
    48 ≤ c.toNat ∧ c.toNat ≤ 57 ∨ 65 ≤ c.toNat ∧ c.toNat ≤ 90 ∨ c.toNat = 95 ∨
      97 ≤ c.toNat ∧ c.toNat ≤ 122 := by
  -- capitals, small letters, digits, and the underscore
  have hkinds : isWordChar c = (decide ('A'.val ≤ c.val ∧ c.val ≤ 'Z'.val) ||
      decide ('a'.val ≤ c.val) && decide (c.val ≤ 'z'.val) ||
      decide ('0'.val ≤ c.val) && decide (c.val ≤ '9'.val) || decide (c = '_')) := rfl
  rw [hkinds]
  simp [← Char.toNat_inj, UInt32.le_iff_toNat_le]
  omega

/-- The white space of ASCII by its code points. -/
theorem isAsciiBlank_iff : isAsciiBlank c = true ↔
    9 ≤ c.toNat ∧ c.toNat ≤ 13 ∨ c.toNat = 32 := by
  simp [isAsciiBlank, ← Char.toNat_inj, Char.le_def, UInt32.le_iff_toNat_le]
  omega

/-- No blank belongs to a word. -/
theorem isWordChar_of_isAsciiBlank (h : isAsciiBlank c = true) : isWordChar c = false := by
  rw [Bool.eq_false_iff, ne_eq, isWordChar_iff]
  have hblank := isAsciiBlank_iff.mp h
  omega

namespace CharSet

theorem contains_single : (single d).contains c = true ↔ c = d := by
  simp [contains, single, CharRange.contains, CharRange.single, ← Char.toNat_inj]
  omega

/-- The class written `\w` has the characters of words. -/
theorem contains_word : word.contains c = isWordChar c := by
  have hranges : word.ranges = [⟨48, 57⟩, ⟨65, 90⟩, ⟨95, 95⟩, ⟨97, 122⟩] := by decide
  rw [Bool.eq_iff_iff, isWordChar_iff]
  simp [contains, hranges, CharRange.contains]
  omega

/-- The class written `\s` has the white space of ASCII. -/
theorem contains_space : space.contains c = isAsciiBlank c := by
  have hranges : space.ranges = [⟨9, 13⟩, ⟨32, 32⟩] := by decide
  rw [Bool.eq_iff_iff, isAsciiBlank_iff]
  simp [contains, hranges, CharRange.contains]
  omega

/-- Every range of the one set lies in a range of the other. -/
def within (s s' : CharSet) : Bool :=
  s.ranges.all fun r => s'.ranges.any fun r' => r'.lo ≤ r.lo && r.hi ≤ r'.hi

/-- A set within another one has no character that the other one lacks. -/
theorem contains_of_within {s s' : CharSet} (h : s.within s' = true) (hc : s.contains c = true) :
    s'.contains c = true := by
  unfold contains at hc ⊢
  obtain ⟨r, hr, hrange⟩ := List.any_eq_true.mp hc
  obtain ⟨r', hr', hbounds⟩ := List.any_eq_true.mp (List.all_eq_true.mp h r hr)
  refine List.any_eq_true.mpr ⟨r', hr', ?_⟩
  simp only [CharRange.contains, Bool.and_eq_true, decide_eq_true_eq] at hrange hbounds ⊢
  omega

end CharSet

end TestImpact
