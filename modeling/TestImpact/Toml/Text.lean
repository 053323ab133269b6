import TestImpact.Text.Hex

/-!
# Blanks, strings and keys

The smallest parts of a settings file. Strings are written in four ways: with double or with single
quotes, one of them or three, which enclose one line or many. Escapes are read between double quotes
only. A key is a series of names with points between them; a name is written bare, or as a string on
one line.
-/

namespace TestImpact.Toml

/-! ### Blanks -/

/-- Whether a character is a blank within a line. -/
def isSpace (c : Char) : Bool := c = ' ' || c = '\t'

/-- What follows the blanks at the start of a text. -/
def skipSpaces (s : List Char) : List Char := s.dropWhile isSpace

/-- What follows the end of a line: a line feed, which a carriage return may precede. -/
def newline? : List Char → Option (List Char)
  | '\n' :: rest => some rest
  | '\r' :: '\n' :: rest => some rest
  | _ => none

/-- Whether a character may stand for itself in comments and strings: all but the control characters
of ASCII may, and so may the tab. -/
def isPlain (c : Char) : Bool := c = '\t' || (0x20 ≤ c.toNat && c.toNat ≠ 0x7F)

/-- What follows a comment, if one stands at the start. -/
def skipComment : List Char → List Char
  | '#' :: rest => rest.dropWhile isPlain
  | s => s

/-- What follows a line that holds no more than blanks and a comment. The last line needs no line
feed. -/
def lineEnd? (s : List Char) : Option (List Char) :=
  match skipComment (skipSpaces s) with
  | [] => some []
  | rest => newline? rest

/-- What follows blanks, line ends and comments, `inComment` telling whether a comment is open. -/
def skipLayout (inComment : Bool) : List Char → List Char
  | [] => []
  | '\r' :: '\n' :: rest => skipLayout false rest
  | c :: rest =>
    if c = '\n' then skipLayout false rest
    else if inComment then (if isPlain c then skipLayout true rest else c :: rest)
    else if isSpace c then skipLayout false rest
    else if c = '#' then skipLayout true rest
    else c :: rest

/-! ### Strings -/

/-- A way to write strings. -/
structure StringStyle where
  quote : Char
  /-- Whether three quotes enclose the string, which may have many lines then. -/
  multiline : Bool
  deriving DecidableEq, Repr

/-- Whether a backslash begins an escape. -/
def StringStyle.hasEscapes (style : StringStyle) : Bool := style.quote = '"'

/-- A part of a string: the text it stands for and the number of characters it is written with. -/
structure Piece where
  text : List Char
  length : Nat
  deriving DecidableEq, Repr

/-- The character of an escape by a single letter or sign. -/
def simpleEscape? : Char → Option Char
  | 'b' => some '\x08'
  | 't' => some '\t'
  | 'n' => some '\n'
  | 'f' => some '\x0C'
  | 'r' => some '\r'
  | '"' => some '"'
  | '\\' => some '\\'
  | _ => none

/-- An escape by the number of a character, of `digits` digits behind the backslash and a letter. -/
def numberEscape? (digits : Nat) (s : List Char) : Option Piece :=
  if s.length < digits then none
  else do
    let c ← Text.charOfCode? (← Text.hexNumber? (s.take digits))
    some ⟨[c], digits + 2⟩

/-- An escape, of which the backslash has been read. -/
def escape? : List Char → Option Piece
  | 'u' :: rest => numberEscape? 4 rest
  | 'U' :: rest => numberEscape? 8 rest
  | c :: _ => (simpleEscape? c).map fun x => ⟨[x], 2⟩
  | [] => none

/-- What follows blanks and line ends. -/
def skipBlankLines : List Char → List Char
  | '\r' :: '\n' :: rest => skipBlankLines rest
  | c :: rest => if isSpace c || c = '\n' then skipBlankLines rest else c :: rest
  | [] => []

/-- A backslash at the end of a line, itself read already: it stands for nothing, together with the
blanks and line ends that follow. -/
def hiddenLineEnd? (s : List Char) : Option Piece :=
  (newline? (skipSpaces s)).map fun rest => ⟨[], s.length + 1 - (skipBlankLines rest).length⟩

/-- What a string goes on with: its end, or a part of it. -/
inductive Continuation
  | close (last : Piece)
  | more (piece : Piece)
  deriving DecidableEq, Repr

/-- How a string with three quotes goes on at a quote. Up to five quotes end it; those before the
last three belong to the string. -/
def multilineQuote (quote : Char) (s : List Char) : Continuation :=
  let quotes := s.takeWhile (· = quote)
  if quotes.length < 3 then .more ⟨[quote], 1⟩
  else
    let last := quotes.take (min quotes.length 5 - 3)
    .close ⟨last, last.length + 3⟩

/-- How a string goes on. -/
def continuation? (style : StringStyle) : List Char → Option Continuation
  | [] => none
  | c :: rest =>
    if c = style.quote then
      some (if style.multiline then multilineQuote c (c :: rest) else .close ⟨[], 1⟩)
    else if c = '\\' && style.hasEscapes then
      match escape? rest with
      | some piece => some (.more piece)
      | none => if style.multiline then (hiddenLineEnd? rest).map .more else none
    else if isPlain c then some (.more ⟨[c], 1⟩)
    else if style.multiline then
      (newline? (c :: rest)).map fun after => .more ⟨['\n'], rest.length + 1 - after.length⟩
    else none

/-- Read a string whose opening quotes have been read, `skip` characters of its current part being
still to be passed over. -/
def readText (style : StringStyle) : Nat → List Char → Option (List Char × List Char)
  | _, [] => none
  | skip + 1, _ :: rest => readText style skip rest
  | 0, c :: rest =>
    match continuation? style (c :: rest) with
    | none => none
    | some (.close last) => some (last.text, (c :: rest).drop last.length)
    | some (.more piece) =>
      (readText style (piece.length - 1) rest).map fun (text, rest) => (piece.text ++ text, rest)

/-- Read a string on one line whose opening quote has been read. -/
def readLine (quote : Char) (s : List Char) : Option (String × List Char) :=
  (readText ⟨quote, false⟩ 0 s).map fun (text, rest) => (String.ofList text, rest)

/-- Read a string whose three opening quotes have been read. A line end right behind them is no part
of it. -/
def readLines (quote : Char) (s : List Char) : Option (String × List Char) :=
  (readText ⟨quote, true⟩ 0 ((newline? s).getD s)).map fun (text, rest) =>
    (String.ofList text, rest)

/-! ### Keys -/

/-- Whether a character may stand in a bare name. -/
def isBare (c : Char) : Bool := c.isAlphanum || c = '_' || c = '-'

/-- Read a name. -/
def readName : List Char → Option (String × List Char)
  | '"' :: rest => readLine '"' rest
  | '\'' :: rest => readLine '\'' rest
  | s =>
    match s.takeWhile isBare with
    | [] => none
    | name => some (String.ofList name, s.dropWhile isBare)

/-- Read a key of at most `limit` names, with the blanks around it. -/
def readKey : Nat → List Char → Option (List String × List Char)
  | 0, _ => none
  | limit + 1, s => do
    let (name, rest) ← readName (skipSpaces s)
    match skipSpaces rest with
    | '.' :: rest => do
      let (names, rest) ← readKey limit rest
      some (name :: names, rest)
    | rest => some ([name], rest)

/-- How many names a key may have, and how deeply arrays and tables may be nested in a value. -/
def maxDepth : Nat := 79

end TestImpact.Toml
