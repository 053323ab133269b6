import TestImpact.Decimal.Natural
import TestImpact.Pattern.Search
import TestImpact.Text.Blank
import TestImpact.Text.Hex
import TestImpact.Text.Letters

/-!
# Written patterns

The written form of patterns: characters stand for themselves, `.` for any character but a line
feed, `[…]` for a class, `\` opens an escape, `*`, `+`, `?` and `{n,m}` repeat what stands before
them, `|` separates alternatives, `(…)` is a group, and `(?…)` sets flags.

The reader walks once over the text. It keeps the groups that are still open on a stack of frames,
so that nothing but the remaining text has to get shorter.
-/

namespace TestImpact

/-- Why a text is not a pattern. -/
inductive PatternError
  | unclosedGroup
  | unopenedGroup
  | invalidGroupName
  | duplicateGroupName (name : String)
  | invalidFlags
  | lookAround
  | invalidEscape
  | unclosedClass
  | invalidClass
  | nothingToRepeat
  | invalidRepetition
  | tooNested
  | tooLarge
  deriving DecidableEq, Repr

/-- The cause in words. -/
def PatternError.message : PatternError → String
  | .unclosedGroup => "a group is not closed"
  | .unopenedGroup => "a parenthesis closes no group"
  | .invalidGroupName => "the name of a group is not valid"
  | .duplicateGroupName name => s!"two groups are named '{name}'"
  | .invalidFlags => "the flags are not valid"
  | .lookAround => "look-around is not supported"
  | .invalidEscape => "an escape is not valid"
  | .unclosedClass => "a class is not closed"
  | .invalidClass => "a class is not valid"
  | .nothingToRepeat => "a repetition has nothing to repeat"
  | .invalidRepetition => "the bounds of a repetition are not valid"
  | .tooNested => "the pattern is nested too deeply"
  | .tooLarge => "the pattern is too large"

/-- Flags that change how what follows is read. -/
structure PatternFlags where
  /-- Letters of ASCII stand for both cases. -/
  ignoreCase : Bool := false
  /-- `^` and `$` stand for the ends of lines. -/
  multiLine : Bool := false
  /-- `.` stands for a line feed too. -/
  dotAll : Bool := false
  /-- Repetitions are greedy if they carry a `?` and not otherwise. -/
  swapGreed : Bool := false
  /-- A carriage return and a line feed end a line together. -/
  paired : Bool := false
  /-- Blanks and comments may stand between the parts of a pattern. -/
  verbose : Bool := false

namespace PatternFlags

/-- Take a comment off the start of a text, up to and including its line feed. -/
def skipComment : List Char → List Char
  | [] => []
  | c :: r => if c = '\n' then r else skipComment r

/-- Take blanks and comments off the start of a text, in at most `bound` pieces. -/
def skipBlanks : Nat → List Char → List Char
  | 0, s => s
  | _ + 1, [] => []
  | bound + 1, c :: r =>
    if Text.isBlank c then skipBlanks bound r
    else if c = '#' then skipBlanks bound (skipComment r)
    else c :: r

/-- What follows the blanks and comments at the start of a text, if those are to be skipped. -/
def skip (flags : PatternFlags) (s : List Char) : List Char :=
  if flags.verbose then skipBlanks s.length s else s

/-- The first character after the blanks and the sign of a comment, if those are to be skipped. The
text of the comment is not passed over. -/
def peek? (flags : PatternFlags) (s : List Char) : Option Char :=
  if !flags.verbose then s.head?
  else
    match s.dropWhile Text.isBlank with
    | '#' :: r => (r.dropWhile Text.isBlank).head?
    | s => s.head?

/-- A single character, with its other case if case is ignored. -/
def char (flags : PatternFlags) (c : Char) : CharSet :=
  if flags.ignoreCase then (CharSet.single c).foldCase else .single c

/-- What `.` stands for. -/
def dot (flags : PatternFlags) : CharSet :=
  if flags.dotAll then CharSet.complement ⟨[]⟩
  else if flags.paired then (CharSet.ofPairs [('\n', '\n'), ('\r', '\r')]).complement
  else (CharSet.single '\n').complement

/-- What `^` stands for. -/
def startAnchor (flags : PatternFlags) : Assertion :=
  if !flags.multiLine then .textStart else if flags.paired then .lineStartPaired else .lineStart

/-- What `$` stands for. -/
def endAnchor (flags : PatternFlags) : Assertion :=
  if !flags.multiLine then .textEnd else if flags.paired then .lineEndPaired else .lineEnd

/-- Turn one flag on or off. The flag `u` has no effect. -/
def set? (flags : PatternFlags) (on : Bool) : Char → Option PatternFlags
  | 'i' => some { flags with ignoreCase := on }
  | 'm' => some { flags with multiLine := on }
  | 's' => some { flags with dotAll := on }
  | 'U' => some { flags with swapGreed := on }
  | 'R' => some { flags with paired := on }
  | 'x' => some { flags with verbose := on }
  | 'u' => some flags
  | _ => none

/-- Read flags up to the `)` or `:` that ends them. `on` tells whether flags are turned on still,
and `seen` holds the characters read. -/
def read (on : Bool) (seen : List Char) (flags : PatternFlags) :
    List Char → Except PatternError (PatternFlags × List Char × List Char)
  | [] => .error .invalidFlags
  | c :: r =>
    if c = ':' ∨ c = ')' then
      if seen.head? = some '-' then .error .invalidFlags else .ok (flags, seen, c :: r)
    else if seen.contains c then .error .invalidFlags
    else if c = '-' then read false (c :: seen) flags r
    else
      match flags.set? on c with
      | none => .error .invalidFlags
      | some flags => read on (c :: seen) flags r

end PatternFlags

namespace PatternReader

/-- A part of a pattern with the number of levels of its tree, and its size: how many bytes the
steps of a search take, every round of a bounded repetition being written out. -/
structure Part where
  pattern : Pattern
  height : Nat := 0
  size : Nat

namespace Part

/-- The size of one step of a search. -/
def stepSize : Nat := 32

/-- What a range of characters adds to the size of a step. -/
def rangeSize : Nat := 8

/-- What a way to go on adds to the size of a fork. -/
def waySize : Nat := 4

/-- The empty part. -/
def empty : Part := ⟨.empty, 0, stepSize⟩

/-- A condition. -/
def check (a : Assertion) : Part := ⟨.check a, 0, stepSize⟩

/-- A class of characters. -/
def ofClass (set : CharSet) : Part :=
  ⟨.one set, 0, stepSize + rangeSize * set.ranges.length⟩

/-- A single character, which is a class of two if both cases are meant. -/
def ofChar (flags : PatternFlags) (c : Char) : Part :=
  let set := flags.char c
  if set.ranges.length = 1 then ⟨.one set, 0, stepSize⟩ else ofClass set

/-- Parts one after another. -/
def seqs : List Part → Part
  | [] => empty
  | [p] => p
  | ps => ⟨.seqs (ps.map (·.pattern)), (ps.map (·.height)).foldl max 0 + 1,
      (ps.map (·.size)).foldl (· + ·) 0⟩

/-- Alternatives: a fork with a way for each, and a place where they meet. -/
def alts : List Part → Part
  | [] => empty
  | [p] => p
  | ps => ⟨.alts (ps.map (·.pattern)), (ps.map (·.height)).foldl max 0 + 1,
      (ps.map (·.size + waySize)).foldl (· + ·) (2 * stepSize)⟩

/-- A part whose text is remembered. -/
def group (index : Nat) (p : Part) : Part :=
  ⟨.group index p.pattern, p.height + 1, p.size + 2 * stepSize⟩

/-- The size of a repeated part: forks decide on the rounds that need not be. -/
def repeatedSize (p : Part) (least : Nat) (most : Option Nat) : Nat :=
  let forkSize := stepSize + 2 * waySize
  match least, most with
  | 0, none => if p.pattern.nullable then p.size + 2 * forkSize + stepSize else p.size + forkSize
  | least, none => least * p.size + forkSize
  | 0, some 1 => p.size + forkSize + stepSize
  | 0, some most => most * (p.size + forkSize) + 2 * stepSize
  | least, some most =>
    least * p.size + if least = most then 0 else (most - least) * (p.size + forkSize) + stepSize

/-- A part repeated. No round at all leaves the empty piece, and exactly one the part itself. -/
def repeated (p : Part) (least : Nat) (most : Option Nat) (greedy : Bool) : Part :=
  if most = some 0 then empty
  else if least = 1 ∧ most = some 1 then p
  else ⟨.repeated p.pattern least most greedy, p.height + 1, p.repeatedSize least most⟩

end Part

/-- An open group: its number if its text is remembered, the flags to go back to, and what has been
read of it, latest first. -/
structure Frame where
  index : Option Nat := none
  outer : PatternFlags := {}
  parts : List Part := []
  alternatives : List Part := []

namespace Frame

/-- End the alternative being read. -/
def nextAlternative (f : Frame) : Frame :=
  { f with parts := [], alternatives := Part.seqs f.parts.reverse :: f.alternatives }

/-- Add a part. -/
def push (f : Frame) (p : Part) : Frame := { f with parts := p :: f.parts }

/-- What has been read, all alternatives together. -/
def body (f : Frame) : Part := Part.alts f.nextAlternative.alternatives.reverse

/-- The group that the frame becomes when it is closed. -/
def close (f : Frame) : Part :=
  match f.index with
  | none => f.body
  | some i => f.body.group i

end Frame

/-- What has been read of a pattern: the innermost open group, those around it, and the groups
met. -/
structure State where
  flags : PatternFlags := {}
  frame : Frame := {}
  outer : List Frame := []
  groups : Nat := 0
  names : List (String × Nat) := []

/-- How many groups may stand within one another, and how many levels a pattern may have. -/
def nestLimit : Nat := 50

/-- The bound of the size of a pattern. -/
def sizeLimit : Nat := 10485760

/-- The size of a whole pattern, which is a group of its own, ends with a step, and keeps a table of
the groups and their names. -/
def State.size (st : State) (whole : Part) : Nat :=
  let nameSizes := st.names.map fun (name, _) => name.utf8ByteSize + 4
  (whole.group 0).size + Part.stepSize + 16 * (st.groups + 1) + nameSizes.foldl (· + ·) 0

/-- Add a part to the innermost open group. -/
def State.push (st : State) (p : Part) : State := { st with frame := st.frame.push p }

/-- Open a group. -/
def State.openGroup (st : State) (index : Option Nat) (flags : PatternFlags) :
    Except PatternError State :=
  if nestLimit ≤ st.outer.length then .error .tooNested
  else .ok { st with
    flags := flags
    frame := { index := index, outer := st.flags }
    outer := st.frame :: st.outer
    groups := if index.isSome then st.groups + 1 else st.groups }

/-- Close the innermost open group. -/
def State.closeGroup (st : State) : Except PatternError State :=
  match st.outer with
  | [] => .error .unopenedGroup
  | around :: outer => .ok { st with
      flags := st.frame.outer
      frame := around.push st.frame.close
      outer := outer }

/-- Read `n` more hexadecimal digits. -/
def hexDigits (flags : PatternFlags) (value : Nat) : Nat → List Char → Option (Nat × List Char)
  | 0, s => some (value, s)
  | n + 1, s =>
    match s with
    | [] => none
    | c :: r => do
      let d ← Text.hexValue? c
      hexDigits flags (16 * value + d) n (flags.skip r)

/-- Read hexadecimal digits up to a closing brace, in at most `bound` steps. -/
def bracedHex (flags : PatternFlags) (digits : Nat) (value : Nat) :
    Nat → List Char → Option (Nat × List Char)
  | 0, _ => none
  | bound + 1, s =>
    match s with
    | [] => none
    | c :: r =>
      if c = '\x7D' then if digits = 0 then none else some (value, flags.skip r)
      else do
        let d ← Text.hexValue? c
        bracedHex flags (digits + 1) (16 * value + d) bound (flags.skip r)

/-- Read the character that an escape gives by `n` digits or between braces. -/
def hexEscape (flags : PatternFlags) (n : Nat) (s : List Char) :
    Except PatternError (Char × List Char) :=
  let read :=
    match flags.skip s with
    | '\x7B' :: r => bracedHex flags 0 0 (r.length + 1) (flags.skip r)
    | s => hexDigits flags 0 n s
  match read.bind fun (value, r) => (Text.charOfCode? value).map (·, r) with
  | some result => .ok result
  | none => .error .invalidEscape

/-- The characters that an escape takes literally: those of ASCII that are neither letters nor
digits nor angle brackets. -/
def isEscapable (c : Char) : Bool :=
  c.toNat < 0x80 && !c.isAlphanum && c != '<' && c != '>'

/-- The control character of an escape by a letter. -/
def controlEscape? : Char → Option Char
  | 'a' => some '\x07'
  | 'f' => some '\x0C'
  | 't' => some '\t'
  | 'n' => some '\n'
  | 'r' => some '\r'
  | 'v' => some '\x0B'
  | _ => none

/-- The class of an escape by a letter. -/
def classEscape? : Char → Option CharSet
  | 'd' => some .digit
  | 'D' => some CharSet.digit.complement
  | 's' => some .space
  | 'S' => some CharSet.space.complement
  | 'w' => some .word
  | 'W' => some CharSet.word.complement
  | _ => none

/-- Read the letters and hyphens of a name in braces, in at most `bound` steps. -/
def bracedName (flags : PatternFlags) (name : List Char) :
    Nat → List Char → List Char × List Char
  | 0, s => (name.reverse, s)
  | bound + 1, s =>
    match s with
    | [] => (name.reverse, [])
    | c :: r =>
      if c.isAlpha || c = '-' then bracedName flags (c :: name) bound (flags.skip r)
      else (name.reverse, c :: r)

/-- Read what follows `\b`: a kind of boundary in braces, or nothing that belongs to it. -/
def boundary (flags : PatternFlags) (s : List Char) : Except PatternError (Assertion × List Char) :=
  match s with
  | '\x7B' :: r =>
    match flags.skip r with
    | [] => .error .invalidEscape
    | c :: r =>
      if c.isAlpha || c = '-' then
        match bracedName flags [] (r.length + 1) (c :: r) with
        | (name, '\x7D' :: r) =>
          match String.ofList name with
          | "start" => .ok (.wordStart, r)
          | "end" => .ok (.wordEnd, r)
          | "start-half" => .ok (.wordStartHalf, r)
          | "end-half" => .ok (.wordEndHalf, r)
          | _ => .error .invalidEscape
        | _ => .error .invalidEscape
      else .ok (.wordBoundary, s)
  | _ => .ok (.wordBoundary, s)

/-- Read an escape, its backslash being read. -/
def escape (flags : PatternFlags) : List Char → Except PatternError (Part × List Char)
  | [] => .error .invalidEscape
  | c :: r =>
    match c with
    | 'x' => do let (x, r) ← hexEscape flags 2 r; pure (.ofChar flags x, r)
    | 'u' => do let (x, r) ← hexEscape flags 4 r; pure (.ofChar flags x, r)
    | 'U' => do let (x, r) ← hexEscape flags 8 r; pure (.ofChar flags x, r)
    | 'A' => .ok (.check .textStart, r)
    | 'z' => .ok (.check .textEnd, r)
    | 'b' => do let (a, r) ← boundary flags r; pure (.check a, r)
    | 'B' => .ok (.check .noWordBoundary, r)
    | '<' => .ok (.check .wordStart, r)
    | '>' => .ok (.check .wordEnd, r)
    | _ =>
      match classEscape? c, controlEscape? c with
      | some set, _ => .ok (.ofClass set, r)
      | none, some x => .ok (.ofChar flags x, r)
      | none, none =>
        if isEscapable c then .ok (.ofChar flags c, r) else .error .invalidEscape

/-- Read one item of a class: a character, or an escape that stands for characters. -/
def classItem (flags : PatternFlags) : List Char → Except PatternError (CharSet × List Char)
  | [] => .error .unclosedClass
  | '\\' :: r => do
    match ← escape flags r with
    | (⟨.one set, _, _⟩, r) => pure (set, r)
    | _ => .error .invalidClass
  | c :: r => .ok (.single c, r)

/-- Read an item of a class, or a range between two characters. -/
def classRange (flags : PatternFlags) (s : List Char) :
    Except PatternError (List CharRange × List Char) := do
  let (first, r) ← classItem flags s
  match flags.skip r with
  | [] => .error .unclosedClass
  | '-' :: r =>
    if flags.peek? r = some ']' ∨ flags.peek? r = some '-' then pure (first.ranges, '-' :: r)
    else
      let (last, rest) ← classItem flags (flags.skip r)
      match first.single?, last.single? with
      | some a, some b =>
        if a ≤ b then pure ([⟨a.toNat, b.toNat⟩], rest) else .error .invalidClass
      | _, _ => .error .invalidClass
  | r => pure (first.ranges, r)

/-- Read a named class, its opening bracket being read. -/
def namedClass (s : List Char) : Except PatternError (CharSet × List Char) :=
  match s with
  | ':' :: r =>
    let (negated, r) := match r with
      | '^' :: r => (true, r)
      | r => (false, r)
    match r.takeWhile (· ≠ ':'), r.dropWhile (· ≠ ':') with
    | name, ':' :: ']' :: rest =>
      match CharSet.named? (String.ofList name) with
      | some set => .ok (if negated then set.complement else set, rest)
      | none => .error .invalidClass
    | _, _ => .error .invalidClass
  | _ => .error .invalidClass

/-- Read the items of a class up to its closing bracket, in at most `bound` steps. -/
def classItems (flags : PatternFlags) (ranges : List CharRange) :
    Nat → List Char → Except PatternError (List CharRange × List Char)
  | 0, _ => .error .unclosedClass
  | bound + 1, s =>
    match flags.skip s with
    | [] => .error .unclosedClass
    | '[' :: r => do
      let (set, r) ← namedClass r
      classItems flags (ranges ++ set.ranges) bound r
    | ']' :: r => .ok (ranges, r)
    | '&' :: '&' :: _ => .error .invalidClass
    | '-' :: '-' :: _ => .error .invalidClass
    | '~' :: '~' :: _ => .error .invalidClass
    | c :: r => do
      let (more, r) ← classRange flags (c :: r)
      classItems flags (ranges ++ more) bound r

/-- Read the hyphens that stand for themselves at the start of a class, in at most `bound` steps. -/
def leadingHyphens (flags : PatternFlags) (ranges : List CharRange) :
    Nat → List Char → List CharRange × List Char
  | bound + 1, '-' :: r => leadingHyphens flags (.single '-' :: ranges) bound (flags.skip r)
  | _, s => (ranges, s)

/-- Read a class, its opening bracket being read. -/
def charClass (flags : PatternFlags) (s : List Char) :
    Except PatternError (CharSet × List Char) := do
  let (negated, s) := match flags.skip s with
    | '^' :: r => (true, flags.skip r)
    | s => (false, s)
  let (ranges, s) := leadingHyphens flags [] s.length s
  let (ranges, s) := match ranges, s with
    | [], ']' :: r => ([CharRange.single ']'], flags.skip r)
    | ranges, s => (ranges, s)
  let (ranges, rest) ← classItems flags ranges (s.length + 1) s
  let set := CharSet.ofRanges ranges
  let set := if flags.ignoreCase then set.foldCase else set
  pure (if negated then set.complement else set, rest)

/-- Read the digits of a number, in at most `bound` steps. -/
def digits (flags : PatternFlags) (read : List Char) : Nat → List Char → List Char × List Char
  | 0, s => (read.reverse, s)
  | bound + 1, s =>
    match s with
    | [] => (read.reverse, [])
    | c :: r =>
      if c.isDigit then digits flags (c :: read) bound (flags.skip r) else (read.reverse, c :: r)

/-- Read a number that 32 bits hold, with blanks around it. -/
def number (flags : PatternFlags) (s : List Char) : Except PatternError (Nat × List Char) :=
  let s := Text.trimStart s
  match digits flags [] s.length s with
  | ([], _) => .error .invalidRepetition
  | (ds, r) =>
    let value := Decimal.valueFrom 0 ds
    if value < Decimal.bound32 then .ok (value, flags.skip (Text.trimStart r))
    else .error .invalidRepetition

/-- Read the mark of a repetition that prefers few rounds, and tell whether many are preferred. -/
def greed (flags : PatternFlags) : List Char → Bool × List Char
  | '?' :: r => (flags.swapGreed, r)
  | s => (!flags.swapGreed, s)

/-- Read the bounds of a repetition, its opening brace being read. -/
def bounds (flags : PatternFlags) (s : List Char) :
    Except PatternError (Nat × Option Nat × List Char) := do
  let (least, s) ← number flags (flags.skip s)
  match s with
  | '\x7D' :: r => pure (least, some least, r)
  | ',' :: r =>
    match flags.skip r with
    | '\x7D' :: r => pure (least, none, r)
    | r =>
      let (most, r) ← number flags r
      match r with
      | '\x7D' :: r =>
        if least ≤ most then pure (least, some most, r) else .error .invalidRepetition
      | _ => .error .invalidRepetition
  | _ => .error .invalidRepetition

/-- Repeat the last part of the innermost open group. -/
def repeatLast (st : State) (least : Nat) (most : Option Nat) (s : List Char) :
    Except PatternError (State × List Char) :=
  match st.frame.parts with
  | [] => .error .nothingToRepeat
  | p :: parts =>
    let (greedy, rest) := greed st.flags s
    .ok ({ st with
      frame := { st.frame with parts := p.repeated least most greedy :: parts } }, rest)

/-- Whether a character may stand in the name of a group. -/
def isNameChar (first : Bool) (c : Char) : Bool :=
  c = '_' || Text.isLetter c || (!first && (c = '.' || c = '[' || c = ']' || Text.isNumeral c))

/-- Open a group with a name. -/
def namedGroup (st : State) (s : List Char) : Except PatternError (State × List Char) :=
  match s.takeWhile (· ≠ '>'), s.dropWhile (· ≠ '>') with
  | c :: name, '>' :: rest =>
    let index := st.groups + 1
    let whole := String.ofList (c :: name)
    if !(isNameChar true c && name.all (isNameChar false)) then .error .invalidGroupName
    else if (st.names.lookup whole).isSome then .error (.duplicateGroupName whole)
    else do
      let st ← st.openGroup (some index) st.flags
      pure ({ st with names := st.names ++ [(whole, index)] }, rest)
  | _, _ => .error .invalidGroupName

/-- Read the start of a group, its opening parenthesis being read. -/
def groupStart (st : State) (s : List Char) : Except PatternError (State × List Char) :=
  match st.flags.skip s with
  | '?' :: '=' :: _ => .error .lookAround
  | '?' :: '!' :: _ => .error .lookAround
  | '?' :: '<' :: '=' :: _ => .error .lookAround
  | '?' :: '<' :: '!' :: _ => .error .lookAround
  | '?' :: 'P' :: '<' :: r => namedGroup st r
  | '?' :: '<' :: r => namedGroup st r
  | '?' :: r => do
    match ← PatternFlags.read true [] st.flags r with
    | (flags, seen, ')' :: rest) =>
      if seen.isEmpty then .error .invalidFlags else pure ({ st with flags := flags }, rest)
    | (flags, _, rest) =>
      let st ← st.openGroup none flags
      pure (st, rest.drop 1)
  | s => do
    let st ← st.openGroup (some (st.groups + 1)) st.flags
    pure (st, s)

/-- Read the next part of a pattern, its first character being given. -/
def part (st : State) (c : Char) (r : List Char) : Except PatternError (State × List Char) :=
  match c with
  | '(' => groupStart st r
  | ')' => do pure (← st.closeGroup, r)
  | '|' => .ok ({ st with frame := st.frame.nextAlternative }, r)
  | '[' => do
    let (set, r) ← charClass st.flags r
    pure (st.push (.ofClass set), r)
  | '?' => repeatLast st 0 (some 1) r
  | '*' => repeatLast st 0 none r
  | '+' => repeatLast st 1 none r
  | '\x7B' => do
    if st.frame.parts.isEmpty then .error .nothingToRepeat
    let (least, most, r) ← bounds st.flags r
    repeatLast st least most (st.flags.skip r)
  | '\\' => do
    let (p, r) ← escape st.flags r
    pure (st.push p, r)
  | '.' => .ok (st.push (.ofClass st.flags.dot), r)
  | '^' => .ok (st.push (.check st.flags.startAnchor), r)
  | '$' => .ok (st.push (.check st.flags.endAnchor), r)
  | c => .ok (st.push (.ofChar st.flags c), r)

/-- Read the parts of a pattern, in at most `bound` steps. -/
def parts (st : State) : Nat → List Char → Except PatternError State
  | 0, _ => .ok st
  | bound + 1, s =>
    match st.flags.skip s with
    | [] => .ok st
    | c :: r => do
      let (st, rest) ← part st c r
      parts st bound rest

end PatternReader

namespace Expression

open PatternReader in
/-- Read a written pattern. -/
def parse (s : String) : Except PatternError Expression := do
  let text := s.toList
  let st ← parts {} (text.length + 1) text
  if !st.outer.isEmpty then .error .unclosedGroup
  let whole := st.frame.body
  if nestLimit < whole.height then .error .tooNested
  if sizeLimit < st.size whole then .error .tooLarge
  pure { body := whole.pattern, names := st.names }

end Expression

end TestImpact
