import Mathlib.Data.List.Nodup
import TestImpact.Proofs.Patch.Scan

/-!
# Names that are reported

A walk over a patch keeps a list of the methods that it has met. A method that is met again is not
added to it, so the names that are reported for a patch differ from each other
(`Detector.nodup_touchedMethods`), and so do the qualified names of a file
(`Detector.nodup_detect`): within one file a qualified name tells the method.
-/

namespace TestImpact

/-- Within a namespace different methods have different qualified names. -/
theorem QualifiedName.ofMethod_injective (namespaceName : String) :
    Function.Injective (QualifiedName.ofMethod namespaceName) := by
  intro method other h
  unfold QualifiedName.ofMethod at h
  split at h
  · exact (String.append_left_inj _).mp h
  · exact (String.append_right_inj _).mp ((String.append_left_inj _).mp h)

namespace Patch

variable {scan : Scan}

namespace Detector

variable {d : Detector}

/-- One line adds a method to the list only if the list does not hold it yet. -/
theorem nodup_opened_step (h : scan.opened.Nodup) (l : Line) : (d.step scan l).opened.Nodup := by
  rcases d.opened_step scan l with hsame | ⟨m, -, hnew, hadd⟩
  · rw [hsame]
    exact h
  · rw [hadd]
    apply List.Nodup.append h (List.nodup_singleton m)
    rw [List.disjoint_singleton]
    exact hnew

theorem nodup_opened_run (h : scan.opened.Nodup) (ls : List Line) :
    (d.run scan ls).opened.Nodup := by
  induction ls generalizing scan with
  | nil => exact h
  | cons l ls ih => exact ih (nodup_opened_step h l)

/-- The names that are reported for a patch differ from each other. -/
theorem nodup_touchedMethods (patch : List Char) : (d.touchedMethods patch).Nodup := by
  apply List.Nodup.filter
  exact nodup_opened_run List.nodup_nil (linesOf patch)

/-- The qualified names that are reported for the patch of a file differ from each other. -/
theorem nodup_detect (patch path : String) : (d.detect patch path).Nodup := by
  apply List.Nodup.map
  · exact QualifiedName.ofMethod_injective _
  · exact nodup_touchedMethods _

theorem nodup_detectFile (change : FileChange) : (d.detectFile change).Nodup := by
  unfold detectFile
  split
  · exact nodup_detect _ _
  · exact List.nodup_nil

end Detector

end Patch

end TestImpact
