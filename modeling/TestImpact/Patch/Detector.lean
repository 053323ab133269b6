import TestImpact.FileChange
import TestImpact.Patch.Signature
import TestImpact.Patch.Span
import TestImpact.QualifiedName

/-!
# Detecting touched methods

A detector walks over the lines of a patch. A line that declares a method opens the method's span
in place of the one open before; the header of a hunk closes the open span and opens that of the
method named in its heading. A method is touched if an edit lies inside its span, or, where that is
asked for, if its signature is edited.
-/

namespace TestImpact

namespace Patch

/-- How methods are detected and named. -/
structure DetectorOptions where
  /-- Directories that do not belong to a namespace. -/
  sourceRoots : List String := ["src/main/java/", "src/"]
  /-- How the names of source files end. -/
  extension : String := ".java"
  spanMode : SpanMode := .braces
  /-- Whether an edit of its signature touches a method. -/
  countSignatureEdits : Bool := false
  deriving DecidableEq, Repr

/-- Options and a matcher for signatures. -/
structure Detector where
  options : DetectorOptions := {}
  matcher : SignatureMatcher := .default

/-- What a walk over a patch has found so far. -/
structure Scan where
  /-- The methods met, in the order in which they were met first. -/
  opened : List String := []
  touched : List String := []
  /-- The method whose span is open, with the span. -/
  current : Option (String × Span) := none
  deriving DecidableEq, Repr

namespace Scan

/-- Meet a method at its signature and open its span. -/
def openMethod (scan : Scan) (mode : SpanMode) (method : String) (signature : Line) : Scan where
  opened := if scan.opened.contains method then scan.opened else scan.opened ++ [method]
  touched := scan.touched
  current := (Span.open? mode signature).map (method, ·)

/-- Touch a method. -/
def touch (scan : Scan) (method : String) : Scan :=
  { scan with
    touched := if scan.touched.contains method then scan.touched else method :: scan.touched }

/-- The touched methods, in the order in which they were met first. -/
def result (scan : Scan) : List String := scan.opened.filter (scan.touched.contains ·)

end Scan

namespace Detector

/-- The header of a hunk: the method of its heading is open, as if its signature were a line of
context, or none is. -/
def stepHeader (d : Detector) (scan : Scan) (heading : List Char) : Scan :=
  match d.matcher heading with
  | some method => scan.openMethod d.options.spanMode method ⟨.context, heading⟩
  | none => { scan with current := none }

/-- A line that declares a method. -/
def stepSignature (d : Detector) (scan : Scan) (method : String) (line : Line) : Scan :=
  let scan := scan.openMethod d.options.spanMode method line
  if d.options.countSignatureEdits && line.isEdit then scan.touch method else scan

/-- A line that declares no method. -/
def stepBody (scan : Scan) (line : Line) : Scan :=
  match scan.current with
  | none => scan
  | some (method, span) =>
    let scan := if line.isEdit && span.contains line then scan.touch method else scan
    { scan with current := (span.next? line).map (method, ·) }

/-- One line of a patch. -/
def step (d : Detector) (scan : Scan) (line : Line) : Scan :=
  match line.kind with
  | .metadata => scan
  | .hunkHeader => d.stepHeader scan line.content
  | _ =>
    match d.matcher line.content with
    | some method => d.stepSignature scan method line
    | none => stepBody scan line

/-- The walk over some lines. -/
def run (d : Detector) (scan : Scan) (lines : List Line) : Scan := lines.foldl d.step scan

/-- The names of the methods that a patch touches, in the order in which they are met first. -/
def touchedMethods (d : Detector) (patch : List Char) : List String :=
  (d.run {} (linesOf patch)).result

/-- Whether a path has the extension of source files. -/
def handles (d : Detector) (path : String) : Bool :=
  d.options.extension.toList.isSuffixOf path.toList

/-- The qualified names of the methods that a patch of the file at a path touches. -/
def detect (d : Detector) (patch path : String) : List String :=
  let namespaceName := QualifiedName.ofPath d.options.sourceRoots d.options.extension path
  (d.touchedMethods patch.toList).map (QualifiedName.ofMethod namespaceName)

/-- The methods touched in one file; a file without a patch has none. -/
def detectFile (d : Detector) (change : FileChange) : List String :=
  match change.patch with
  | some patch => d.detect patch change.filename
  | none => []

/-- The methods touched in the source files among some changes, file by file. -/
def detectAll (d : Detector) (changes : List FileChange) : List String :=
  (changes.filter fun change => d.handles change.filename).flatMap d.detectFile

end Detector

end Patch

end TestImpact
