import TestImpact.Patch.Line

/-!
# Spans of methods

The span of a method reaches from its signature to its end. It is followed either by counting
braces, separately on the old side of a change (context and removed lines) and on its new side
(context and added lines), or by comparing the indentation of lines with that of the signature.
-/

namespace TestImpact.Patch

/-- How the end of a span is found. -/
inductive SpanMode
  /-- The span ends when the braces are balanced again. -/
  | braces
  /-- The span ends at the first line that is a lone closing brace. -/
  | indentation
  deriving DecidableEq, Repr

/-- The name that settings and reports use. -/
def SpanMode.name : SpanMode → String
  | .braces => "braces"
  | .indentation => "indent"

/-- By how much a text deepens the nesting of braces. -/
def braceDelta (s : List Char) : Int := s.count '{' - s.count '}'

/-- How many blank characters a text begins with. -/
def indentWidth (s : List Char) : Nat := (s.takeWhile Text.isBlank).length

/-- The nesting of braces on one side of a change. -/
structure Depth where
  depth : Int := 0
  /-- Whether the depth has been positive at some line. -/
  entered : Bool := false
  deriving DecidableEq, Repr

namespace Depth

/-- The depth after a line that deepens the nesting by `delta`. -/
def add (d : Depth) (delta : Int) : Depth :=
  ⟨d.depth + delta, d.entered || decide (0 < d.depth + delta)⟩

/-- Whether no brace that this side has entered is open. -/
def isSettled (d : Depth) : Bool := !d.entered || decide (d.depth ≤ 0)

end Depth

/-- What is known of an open span. -/
inductive Span
  | braces (old new : Depth)
  /-- The indentation of the signature. -/
  | indentation (baseline : Nat)
  deriving DecidableEq, Repr

namespace Span

/-- The span that begins at a signature, before the signature's own braces are counted. -/
def start (mode : SpanMode) (signature : List Char) : Span :=
  match mode with
  | .braces => .braces {} {}
  | .indentation => .indentation (indentWidth signature)

/-- Whether a line lies strictly inside the span, the line itself not being counted. -/
def contains (span : Span) (line : Line) : Bool :=
  match span with
  | .braces old new => decide (0 < old.depth) || decide (0 < new.depth)
  | .indentation baseline => baseline < indentWidth line.content

/-- The span after a line: each side counts the lines that stand on it. -/
def observe (span : Span) (line : Line) : Span :=
  match span with
  | .braces old new =>
    let delta := braceDelta line.content
    match line.kind with
    | .added => .braces old (new.add delta)
    | .removed => .braces (old.add delta) new
    | .context => .braces (old.add delta) (new.add delta)
    | _ => span
  | .indentation _ => span

/-- Whether the span has ended with a line, the line being counted already. -/
def isClosed (span : Span) (line : Line) : Bool :=
  match span with
  | .braces old new => (old.entered || new.entered) && old.isSettled && new.isSettled
  | .indentation _ => Text.trim line.content = ['\x7D']

/-- The span after a line, unless it has ended. -/
def next? (span : Span) (line : Line) : Option Span :=
  let span := span.observe line
  if span.isClosed line then none else some span

/-- The span that a signature opens. Its own braces count, and a body that ends on the same line
leaves no span. -/
def open? (mode : SpanMode) (signature : Line) : Option Span :=
  match mode with
  | .braces => (start mode signature.content).next? signature
  | .indentation => some (start mode signature.content)

end Span

end TestImpact.Patch
