import TestImpact.Hosting.Client
import TestImpact.Proofs.Json.Records

/-!
# Listings are read back

A changed file is decoded from the record that it is written as, whether it has a patch and a status
or not, and a listing gives back the files that it was written from (`readPayload_writeListing`).
-/

namespace TestImpact

open Json (slots optional_some faithful_slots record?_slots)

namespace FileChange

/-- A file change is read back from its record. -/
theorem faithful (f : FileChange) : Json.Faithful ofJson? f.toJson f := by
  have hslots : f.toJson = .object (slots [("filename", some (.string f.filename)),
      ("patch", f.patch.map .string), ("status", f.status.map .string)]) := by
    simp [toJson, slots, optional_some]
  rw [hslots]
  apply faithful_slots
  · rw [ofJson?, fieldRules, record?_slots rfl (by decide)]
    simp [Json.string?, Json.optional?_string]
  · simp only [List.forall_mem_cons]
    exact ⟨Json.exact_some (.string _), Json.exact_string _, Json.exact_string _,
      List.forall_mem_nil _⟩

/-- A listing is read whatever blanks stand between its parts. -/
theorem readListing?_write {layout : Json.Layout} (h : layout.Spaced) (files : List FileChange) :
    readListing? (Json.write layout 0 (.array (files.map toJson))) = some files := by
  have hfiles := Json.faithful_list files fun f _ => f.faithful
  rw [readListing?, Json.parse?_write h hfiles.exact, Option.bind_eq_bind, Option.bind_some,
    hfiles.decode_eq]

end FileChange

/-- A listing is read back from its payload. -/
theorem Hosting.readPayload_writeListing (files : List FileChange) :
    readPayload (FileChange.writeListing files) = .ok files := by
  rw [readPayload, FileChange.writeListing, Json.compact, String.toList_ofList,
    FileChange.readListing?_write Json.Layout.spaced_compact]

end TestImpact
