/-!
# Sets of characters

A set of characters is a list of ranges of code points, kept in increasing order with gaps
between the ranges. The named classes and the letter case of a set know ASCII only.
-/

namespace TestImpact

/-- The code points from `lo` to `hi`, both included. -/
structure CharRange where
  lo : Nat
  hi : Nat
  deriving DecidableEq, Repr

/-- A set of characters, given by ranges of code points. -/
structure CharSet where
  ranges : List CharRange
  deriving DecidableEq, Repr

namespace CharRange

/-- Whether a character lies in the range. -/
def contains (r : CharRange) (c : Char) : Bool := r.lo ≤ c.toNat && c.toNat ≤ r.hi

/-- The range of a single character. -/
def single (c : Char) : CharRange := ⟨c.toNat, c.toNat⟩

/-- The letters of a range in the other case. Of a range that meets the small letters only those
are turned. -/
def otherCase? (r : CharRange) : Option CharRange :=
  if r.lo ≤ 'z'.toNat ∧ 'a'.toNat ≤ r.hi then
    some ⟨max r.lo 'a'.toNat - 32, min r.hi 'z'.toNat - 32⟩
  else if r.lo ≤ 'Z'.toNat ∧ 'A'.toNat ≤ r.hi then
    some ⟨max r.lo 'A'.toNat + 32, min r.hi 'Z'.toNat + 32⟩
  else none

end CharRange

namespace CharSet

/-- Insert a range into a list ordered by the lower ends. -/
def insertRange (r : CharRange) : List CharRange → List CharRange
  | [] => [r]
  | s :: rest => if r.lo ≤ s.lo then r :: s :: rest else s :: insertRange r rest

/-- Join neighbouring ranges that overlap or touch, `r` being the range to the left. -/
def joinRanges (r : CharRange) : List CharRange → List CharRange
  | [] => [r]
  | s :: rest =>
    if s.lo ≤ r.hi + 1 then joinRanges ⟨r.lo, max r.hi s.hi⟩ rest else r :: joinRanges s rest

/-- The set that some ranges cover, in whatever order they are given. -/
def ofRanges (rs : List CharRange) : CharSet :=
  match rs.foldr insertRange [] with
  | [] => ⟨[]⟩
  | r :: rest => ⟨joinRanges r rest⟩

/-- The set of a single character. -/
def single (c : Char) : CharSet := ⟨[.single c]⟩

/-- Whether a character is in the set. -/
def contains (s : CharSet) (c : Char) : Bool := s.ranges.any (·.contains c)

/-- The gaps of an ordered list of ranges from the code point `start` on. -/
def gaps (start : Nat) : List CharRange → List CharRange
  | [] => if start ≤ 0x10FFFF then [⟨start, 0x10FFFF⟩] else []
  | r :: rest => if start < r.lo then ⟨start, r.lo - 1⟩ :: gaps (r.hi + 1) rest
    else gaps (r.hi + 1) rest

/-- The characters that are not in the set. -/
def complement (s : CharSet) : CharSet := ⟨gaps 0 s.ranges⟩

/-- The set together with its letters in the other case. -/
def foldCase (s : CharSet) : CharSet := ofRanges (s.ranges ++ s.ranges.filterMap (·.otherCase?))

/-- The only character of a set that has exactly one. -/
def single? (s : CharSet) : Option Char :=
  match s.ranges with
  | [r] => if r.lo = r.hi then some (Char.ofNat r.lo) else none
  | _ => none

/-- The set of the ranges between pairs of characters. -/
def ofPairs (ps : List (Char × Char)) : CharSet :=
  ofRanges (ps.map fun (a, b) => ⟨a.toNat, b.toNat⟩)

/-- The digits `0` to `9`. -/
def digit : CharSet := ofPairs [('0', '9')]

/-- The white space of ASCII. -/
def space : CharSet := ofPairs [('\t', '\r'), (' ', ' ')]

/-- The letters and digits of ASCII, and the underscore. -/
def word : CharSet := ofPairs [('0', '9'), ('A', 'Z'), ('_', '_'), ('a', 'z')]

/-- The classes that a bracketed class may name. -/
def named? (name : String) : Option CharSet :=
  match name with
  | "alnum" => some (ofPairs [('0', '9'), ('A', 'Z'), ('a', 'z')])
  | "alpha" => some (ofPairs [('A', 'Z'), ('a', 'z')])
  | "ascii" => some (ofPairs [('\x00', '\x7F')])
  | "blank" => some (ofPairs [('\t', '\t'), (' ', ' ')])
  | "cntrl" => some (ofPairs [('\x00', '\x1F'), ('\x7F', '\x7F')])
  | "digit" => some digit
  | "graph" => some (ofPairs [('!', '~')])
  | "lower" => some (ofPairs [('a', 'z')])
  | "print" => some (ofPairs [(' ', '~')])
  | "punct" => some (ofPairs [('!', '/'), (':', '@'), ('[', '\x60'), ('\x7B', '~')])
  | "space" => some space
  | "upper" => some (ofPairs [('A', 'Z')])
  | "word" => some word
  | "xdigit" => some (ofPairs [('0', '9'), ('A', 'F'), ('a', 'f')])
  | _ => none

end CharSet

end TestImpact
