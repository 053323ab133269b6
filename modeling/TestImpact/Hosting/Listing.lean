import TestImpact.FileChange
import TestImpact.Json.Decode
import TestImpact.Json.Parser

/-!
# Listings of changed files

The hosting service lists the changed files of a pull request as a JSON array of records, of which
the name, the patch and the status of each file are kept.
-/

namespace TestImpact.FileChange

/-- The fields of a changed file. -/
def fieldRules : List Json.FieldRule := [⟨"filename", false⟩, ⟨"patch", true⟩, ⟨"status", true⟩]

/-- The JSON form, in which what is absent is left out. -/
def toJson (f : FileChange) : Json :=
  .object ([("filename", .string f.filename)] ++ Json.optional "patch" (f.patch.map .string) ++
    Json.optional "status" (f.status.map .string))

/-- Decode a changed file. -/
def ofJson? (x : Json) : Option FileChange := do
  match ← Json.record? fieldRules x with
  | [some filename, patch, status] =>
    return ⟨← Json.string? filename, ← Json.optional? Json.string? patch,
      ← Json.optional? Json.string? status⟩
  | _ => none

/-- Write a listing. -/
def writeListing (files : List FileChange) : String := Json.compact (.array (files.map toJson))

/-- Read a listing. -/
def readListing? (text : List Char) : Option (List FileChange) := do
  Json.list? ofJson? (← Json.parse? text)

end TestImpact.FileChange
