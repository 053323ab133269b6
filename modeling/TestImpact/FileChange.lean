/-!
# Changed files

One changed file, as a source of changes reports it.
-/

namespace TestImpact

/-- A changed file with its path in the repository. -/
structure FileChange where
  filename : String
  /-- The patch of this file; absent for binary and very large files. -/
  patch : Option String := none
  /-- What has been done to the file. -/
  status : Option String := none
  deriving DecidableEq, Repr, Inhabited

end TestImpact
