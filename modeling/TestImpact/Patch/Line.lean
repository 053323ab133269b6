import TestImpact.Text.Blank
import TestImpact.Text.Lines

/-!
# Lines of a patch

A patch lists the lines of one file that a change adds, removes or leaves alone, each behind a
marker, in hunks that begin with a header. Reading a line strips its marker.
-/

namespace TestImpact.Patch

/-- What a line of a patch stands for. -/
inductive Kind
  | added
  | removed
  /-- A line that stands on both sides of the change. -/
  | context
  /-- The header of a hunk. -/
  | hunkHeader
  /-- The header of a file, or the mark of a missing line feed. -/
  | metadata
  deriving DecidableEq, Repr

/-- Whether lines of this kind are added or removed. -/
def Kind.isChange : Kind → Bool
  | .added | .removed => true
  | _ => false

/-- A line of a patch without its marker. For the header of a hunk the content is the heading that
follows the ranges, and it is empty for metadata. -/
structure Line where
  kind : Kind
  content : List Char
  deriving DecidableEq, Repr

/-- Whether a text names one of the two files of a patch. -/
def isFileHeader (s : List Char) : Bool :=
  s = ['+', '+', '+'] || s = ['-', '-', '-'] ||
    ['+', '+', '+', ' '].isPrefixOf s || ['-', '-', '-', ' '].isPrefixOf s

/-- The heading of a hunk header: what follows the second `@@`, without one blank before it. -/
def heading (afterMarker : List Char) : List Char :=
  match Text.cutAt? ['@', '@'] afterMarker with
  | none => []
  | some (_, ' ' :: text) => text
  | some (_, text) => text

namespace Line

/-- Read a line that has no carriage return at its end. A text without a marker is a line of
context, such as an empty line whose blank has been lost. -/
def read (s : List Char) : Line :=
  match s with
  | '@' :: '@' :: rest => ⟨.hunkHeader, heading rest⟩
  | _ =>
    if isFileHeader s then ⟨.metadata, []⟩
    else
      match s with
      | '\\' :: _ => ⟨.metadata, []⟩
      | '+' :: content => ⟨.added, content⟩
      | '-' :: content => ⟨.removed, content⟩
      | ' ' :: content => ⟨.context, content⟩
      | content => ⟨.context, content⟩

/-- Read a line of a patch, a carriage return at its end being no part of it. -/
def ofText (s : List Char) : Line := read (if s.getLast? = some '\r' then s.dropLast else s)

/-- Whether more than one character is left when blanks are trimmed, so that a lone brace does not
count. -/
def isSubstantive (l : Line) : Bool := 1 < (Text.trim l.content).length

/-- Whether the line is an edit that counts: added or removed, and substantive. -/
def isEdit (l : Line) : Bool := l.kind.isChange && l.isSubstantive

end Line

/-- The lines of a patch. -/
def linesOf (patch : List Char) : List Line := (Text.lines patch).map .ofText

end TestImpact.Patch
