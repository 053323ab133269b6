import TestImpact.Pattern.CharSet

/-!
# Patterns

A pattern describes a piece of text: a character of a set, a condition on the place where the
piece stands, patterns one after another, alternatives in order of preference, groups whose text
is remembered, and repetitions that prefer many rounds (greedy) or few.
-/

namespace TestImpact

/-- A condition on the characters before and after a place in a text. -/
inductive Assertion
  | textStart
  | textEnd
  | lineStart
  | lineEnd
  /-- The start of a line, where a carriage return and a line feed end a line together. -/
  | lineStartPaired
  /-- The end of a line, where a carriage return and a line feed end a line together. -/
  | lineEndPaired
  | wordBoundary
  | noWordBoundary
  | wordStart
  | wordEnd
  /-- No word character stands before the place. -/
  | wordStartHalf
  /-- No word character stands after the place. -/
  | wordEndHalf
  deriving DecidableEq, Repr

/-- The characters that words are made of: the letters and digits of ASCII, and the underscore. -/
def isWordChar (c : Char) : Bool := c.isAlphanum || c = '_'

/-- Whether the condition holds between the characters `before` and `after`, each absent at an end
of the text. -/
def Assertion.holds (a : Assertion) (before after : Option Char) : Bool :=
  let wordBefore := before.any isWordChar
  let wordAfter := after.any isWordChar
  match a with
  | .textStart => before.isNone
  | .textEnd => after.isNone
  | .lineStart => before.all (· = '\n')
  | .lineEnd => after.all (· = '\n')
  | .lineStartPaired => before.all fun b => b = '\n' || (b = '\r' && after != some '\n')
  | .lineEndPaired => after.all fun a => a = '\r' || (a = '\n' && before != some '\r')
  | .wordBoundary => wordBefore != wordAfter
  | .noWordBoundary => wordBefore == wordAfter
  | .wordStart => !wordBefore && wordAfter
  | .wordEnd => wordBefore && !wordAfter
  | .wordStartHalf => !wordBefore
  | .wordEndHalf => !wordAfter

/-- A description of pieces of text. -/
inductive Pattern
  /-- The empty piece. -/
  | empty
  /-- A single character of a set. -/
  | one (set : CharSet)
  /-- The empty piece, at a place that meets a condition. -/
  | check (a : Assertion)
  /-- A piece of the one followed by a piece of the other. -/
  | seq (first second : Pattern)
  /-- A piece of the one or, failing that, of the other. -/
  | alt (first second : Pattern)
  /-- A piece that is remembered under a number. -/
  | group (index : Nat) (body : Pattern)
  /-- At least `least` and at most `most` pieces one after another; as many as possible are
  preferred if `greedy`, as few as possible otherwise. -/
  | repeated (body : Pattern) (least : Nat) (most : Option Nat) (greedy : Bool)
  deriving Repr

namespace Pattern

/-- Patterns one after another. -/
def seqs : List Pattern → Pattern
  | [] => .empty
  | [p] => p
  | p :: ps => .seq p (seqs ps)

/-- Alternatives in order of preference. -/
def alts : List Pattern → Pattern
  | [] => .empty
  | [p] => p
  | p :: ps => .alt p (alts ps)

/-- A fixed text. -/
def literal (s : String) : Pattern := seqs (s.toList.map fun c => .one (.single c))

/-- As many pieces as possible, or none. -/
def many (p : Pattern) : Pattern := .repeated p 0 none true

/-- As many pieces as possible, at least one. -/
def many1 (p : Pattern) : Pattern := .repeated p 1 none true

/-- Whether the pattern can match the empty piece, all its conditions being taken to hold. -/
def nullable : Pattern → Bool
  | .empty => true
  | .one _ => false
  | .check _ => true
  | .seq p q => p.nullable && q.nullable
  | .alt p q => p.nullable || q.nullable
  | .group _ p => p.nullable
  | .repeated p least _ _ => least == 0 || p.nullable

end Pattern

end TestImpact
