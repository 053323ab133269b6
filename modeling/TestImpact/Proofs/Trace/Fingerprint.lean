import TestImpact.Diagnostic
import TestImpact.Proofs.Json.Scalars
import TestImpact.Proofs.Lists

/-!
# What the fingerprint of a diagnostic tells

The fingerprint of a diagnostic is the digest of its code and the names that it is about, with bars
between them. A code has no bar, so it is always told. Of a method and an id, only the two with the
bar between them are told: a bar in one of the names may be taken for the one between them
(`same_fingerprint_iff`), and `a|b` with the id `c` is not told from `a` with the id `b|c`
(`same_fingerprint_bars`).

There are more texts than digests, so it is not assumed that the digest tells texts apart. Where it
does not, the two texts are a collision.
-/

namespace TestImpact

/-! ## Bytes and digits -/

theorem toList_byteArray (bytes : ByteArray) : bytes.toList = bytes.data.toList := by
  have hloop : ∀ i read, ByteArray.toList.loop bytes i read =
      read.reverse ++ bytes.data.toList.drop i := by
    intro i read
    induction i, read using ByteArray.toList.loop.induct bytes with
    | case1 i read hi ih =>
      have hlength : i < bytes.data.toList.length := hi
      have hget : bytes.get! i = bytes.data.toList[i] := getElem!_pos bytes.data i hi
      rw [ByteArray.toList.loop, if_pos hi, ih, List.drop_eq_getElem_cons hlength, hget]
      simp
    | case2 i read hi =>
      have hlength : bytes.data.toList.length ≤ i := Nat.le_of_not_lt hi
      rw [ByteArray.toList.loop, if_neg hi, List.drop_eq_nil_of_le hlength, List.append_nil]
  exact hloop 0 []

/-- Different texts have different bytes. -/
theorem toList_toUTF8_inj {s t : String} : s.toUTF8.toList = t.toUTF8.toList ↔ s = t := by
  rw [toList_byteArray, toList_byteArray, Array.toList_inj, ← ByteArray.ext_iff,
    String.toUTF8_eq_toByteArray, String.toUTF8_eq_toByteArray, String.toByteArray_inj]

namespace Digest

theorem digitChar_inj {m n : Nat} (hm : m < 16) (hn : n < 16)
    (h : Nat.digitChar m = Nat.digitChar n) : m = n := by
  have hvalue := congrArg Text.hexValue? h
  rw [Json.hexValue?_digitChar hm, Json.hexValue?_digitChar hn] at hvalue
  exact Option.some.inj hvalue

/-- Different bytes have different hexadecimal digits. -/
theorem hex_inj {bytes bytes' : List UInt8} : hex bytes = hex bytes' ↔ bytes = bytes' := by
  refine ⟨fun h => ?_, congrArg hex⟩
  have hdigits := String.ofList_injective h
  clear h
  induction bytes generalizing bytes' with
  | nil =>
    cases bytes' with
    | nil => rfl
    | cons b' bytes' => cases hdigits
  | cons b bytes ih =>
    cases bytes' with
    | nil => cases hdigits
    | cons b' bytes' =>
      obtain ⟨hhigh, hrest⟩ := List.cons.inj hdigits
      obtain ⟨hlow, hrest⟩ := List.cons.inj hrest
      have hquotient := digitChar_inj (by have := b.toNat_lt; omega) (by have := b'.toNat_lt; omega)
        hhigh
      have hremainder := digitChar_inj (Nat.mod_lt _ (by decide)) (Nat.mod_lt _ (by decide)) hlow
      have hbyte : b = b' := UInt8.toNat_inj.mp (by omega)
      rw [hbyte, ih hrest]

/-- Two messages that the digest does not tell apart. -/
def Collide (message message' : List UInt8) : Prop :=
  message ≠ message' ∧ sha256 message = sha256 message'

end Digest

/-- Parts have one fingerprint if they are one text, or else by a collision. -/
theorem fingerprint_eq_iff {parts parts' : List String} :
    fingerprint parts = fingerprint parts' ↔
      "|".intercalate parts = "|".intercalate parts' ∨
        Digest.Collide ("|".intercalate parts).toUTF8.toList
          ("|".intercalate parts').toUTF8.toList := by
  rw [fingerprint, fingerprint, Digest.hex_inj, Digest.Collide, ne_eq, toList_toUTF8_inj]
  constructor
  · intro h
    by_cases htexts : "|".intercalate parts = "|".intercalate parts'
    · exact .inl htexts
    · exact .inr ⟨htexts, h⟩
  · rintro (htexts | ⟨-, h⟩)
    · rw [htexts]
    · exact h

/-! ## Diagnostics of the tracing -/

/-- What keeps a method from being traced to its tests. -/
inductive Obstacle
  /-- The method has no row in the method table. -/
  | unmapped (method : String)
  /-- The id of the method has no row in the coverage table. -/
  | uncovered (method methodId : String)

namespace Obstacle

/-- The diagnostic that tells of an obstacle. -/
def diagnostic : Obstacle → Diagnostic
  | unmapped method => .unmappedMethod method
  | uncovered method methodId => .missingCoverageRow method methodId

/-- The code and the names that an obstacle is told by. -/
def parts : Obstacle → List String
  | unmapped method => [CodeInfo.unmappedMethod.code, method]
  | uncovered method methodId => [CodeInfo.missingCoverageRow.code, method, methodId]

/-- The text of which the digest is taken. -/
def text (x : Obstacle) : String := "|".intercalate x.parts

/-- The same names with a bar between them, which `x` cuts into a method and an id at an earlier bar
than `y`. -/
def CutEarlier (x y : Obstacle) : Prop :=
  ∃ front middle back : String,
    x = uncovered front (middle ++ "|" ++ back) ∧ y = uncovered (front ++ "|" ++ middle) back

theorem fingerprint_diagnostic (x : Obstacle) :
    x.diagnostic.fingerprint = some (fingerprint x.parts) := by
  cases x <;> rfl

theorem toList_text_unmapped (m : String) :
    (unmapped m).text.toList = CodeInfo.unmappedMethod.code.toList ++ '|' :: m.toList := by
  simp [text, parts, String.intercalate_cons_cons, String.toList_append]

theorem toList_text_uncovered (m id : String) :
    (uncovered m id).text.toList =
      CodeInfo.missingCoverageRow.code.toList ++ '|' :: (m.toList ++ '|' :: id.toList) := by
  simp [text, parts, String.intercalate_cons_cons, String.toList_append]

/-- The code tells what kind of obstacle it is. -/
theorem text_unmapped_ne (m m' id : String) : (unmapped m).text ≠ (uncovered m' id).text := by
  intro h
  have hlists := congrArg String.toList h
  rw [toList_text_unmapped, toList_text_uncovered] at hlists
  obtain ⟨hcodes, -⟩ := append_cons_inj_of_first (by decide) (by decide) hlists
  exact absurd hcodes (by decide)

/-- Diagnostics of methods without an id are told apart by the method. -/
theorem text_unmapped_inj {m m' : String} : (unmapped m).text = (unmapped m').text ↔ m = m' := by
  refine ⟨fun h => ?_, fun h => by rw [h]⟩
  have hlists := congrArg String.toList h
  rw [toList_text_unmapped, toList_text_unmapped] at hlists
  exact String.toList_inj.mp (List.cons.inj (List.append_cancel_left hlists)).2

/-- One cut is earlier than another where the method goes on behind a bar into the id. -/
theorem cutEarlier_iff {m m' id id' : String} :
    CutEarlier (uncovered m id) (uncovered m' id') ↔
      ∃ middle, m'.toList = m.toList ++ '|' :: middle ∧
        id.toList = middle ++ '|' :: id'.toList := by
  constructor
  · rintro ⟨front, middle, back, hx, hy⟩
    obtain ⟨rfl, rfl⟩ := Obstacle.uncovered.inj hx
    obtain ⟨rfl, rfl⟩ := Obstacle.uncovered.inj hy
    exact ⟨middle.toList, by simp [String.toList_append], by simp [String.toList_append]⟩
  · rintro ⟨middle, hmethod, hid⟩
    refine ⟨m, String.ofList middle, id', ?_, ?_⟩
    · rw [uncovered.injEq, ← String.toList_inj, ← String.toList_inj]
      simp [String.toList_append, hid]
    · rw [uncovered.injEq, ← String.toList_inj, ← String.toList_inj]
      simp [String.toList_append, hmethod]

theorem text_uncovered_eq_iff {m m' id id' : String} :
    (uncovered m id).text = (uncovered m' id').text ↔
      uncovered m id = uncovered m' id' ∨ CutEarlier (uncovered m id) (uncovered m' id') ∨
        CutEarlier (uncovered m' id') (uncovered m id) := by
  rw [← String.toList_inj, toList_text_uncovered, toList_text_uncovered, List.append_right_inj,
    List.cons_inj_right, append_cons_eq_append_cons_iff, String.toList_inj, String.toList_inj,
    uncovered.injEq, cutEarlier_iff, cutEarlier_iff]

/-- Diagnostics are alike in text when they are the same or cut the same names at different bars. -/
theorem text_eq_iff {x y : Obstacle} :
    x.text = y.text ↔ x = y ∨ CutEarlier x y ∨ CutEarlier y x := by
  have hcut : ∀ m z, ¬ CutEarlier (unmapped m) z ∧ ¬ CutEarlier z (unmapped m) := by
    intro m z
    constructor
    · rintro ⟨front, middle, back, hx, hy⟩
      cases hx
    · rintro ⟨front, middle, back, hx, hy⟩
      cases hy
  cases x with
  | unmapped m =>
    cases y with
    | unmapped m' => simp [text_unmapped_inj, hcut]
    | uncovered m' id' => simp [text_unmapped_ne, hcut]
  | uncovered m id =>
    cases y with
    | unmapped m' => simp [(text_unmapped_ne m' m id).symm, hcut]
    | uncovered m' id' => exact text_uncovered_eq_iff

/-- **What fingerprints identify.** Two diagnostics of the tracing have the same fingerprint if and
only if they are about the same, or both are about a method and an id, and the method of one is that
of the other with a bar and the beginning of its id behind it, or else by a collision of the
digest. -/
theorem same_fingerprint_iff (x y : Obstacle) :
    x.diagnostic.fingerprint = y.diagnostic.fingerprint ↔
      x = y ∨ CutEarlier x y ∨ CutEarlier y x ∨
        Digest.Collide x.text.toUTF8.toList y.text.toUTF8.toList := by
  have htexts : x.diagnostic.fingerprint = y.diagnostic.fingerprint ↔
      x.text = y.text ∨ Digest.Collide x.text.toUTF8.toList y.text.toUTF8.toList := by
    rw [fingerprint_diagnostic, fingerprint_diagnostic, Option.some_inj]
    exact fingerprint_eq_iff
  rw [htexts, text_eq_iff, or_assoc, or_assoc]

/-- A bar in the name of a method is taken for the one behind it, whatever the digest is like. -/
theorem same_fingerprint_bars :
    (uncovered "a|b" "c").text = (uncovered "a" "b|c").text ∧
      (uncovered "a|b" "c").diagnostic.fingerprint =
        (uncovered "a" "b|c").diagnostic.fingerprint ∧
      (uncovered "a|b" "c").diagnostic.method ≠ (uncovered "a" "b|c").diagnostic.method ∧
      (uncovered "a|b" "c").diagnostic.data ≠ (uncovered "a" "b|c").diagnostic.data := by
  have htext : (uncovered "a|b" "c").text = (uncovered "a" "b|c").text :=
    text_eq_iff.mpr (.inr (.inr ⟨"a", "b", "c", rfl, rfl⟩))
  refine ⟨htext, ?_, by simp [diagnostic, Diagnostic.missingCoverageRow],
    by simp [diagnostic, Diagnostic.missingCoverageRow]⟩
  rw [fingerprint_diagnostic, fingerprint_diagnostic, Option.some_inj]
  exact fingerprint_eq_iff.mpr (.inl htext)

end Obstacle

end TestImpact
