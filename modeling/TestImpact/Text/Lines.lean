/-!
# Lines and pieces of a text

`lines` cuts a text at its line feeds and takes one carriage return off a line that a line feed
ends. `splitOn` cuts a text at every occurrence of a separator and `cutAt?` at the first one.
`words` leaves out the characters between the pieces, however many they are.
-/

namespace TestImpact.Text

/-- The line whose characters were collected backwards, without a carriage return at its end. -/
def finishLine : List Char → List Char
  | '\r' :: l => l.reverse
  | l => l.reverse

/-- The lines of a text, `line` being what has been read of the current one, backwards. -/
def linesFrom (line : List Char) : List Char → List (List Char)
  | [] => if line.isEmpty then [] else [line.reverse]
  | c :: r => if c = '\n' then finishLine line :: linesFrom [] r else linesFrom (c :: line) r

/-- The lines of a text. A line feed ends a line, and so does a carriage return followed by a line
feed; characters after the last line feed are a line of their own if there are any. -/
def lines (s : List Char) : List (List Char) := linesFrom [] s

/-- The pieces of a text around the occurrences of a non-empty separator; `skip` characters of the
occurrence just met are still to be passed over, and `piece` is the current piece, backwards. -/
def splitOnFrom (sep : List Char) : Nat → List Char → List Char → List (List Char)
  | _, piece, [] => [piece.reverse]
  | skip + 1, piece, _ :: r => splitOnFrom sep skip piece r
  | 0, piece, c :: r =>
    if sep.isPrefixOf (c :: r) then piece.reverse :: splitOnFrom sep (sep.length - 1) [] r
    else splitOnFrom sep 0 (c :: piece) r

/-- The pieces of `s` around the occurrences of `sep`, from left to right. The empty separator
stands before and after every character, so its pieces are the single characters between an empty
first and an empty last piece. -/
def splitOn (sep s : List Char) : List (List Char) :=
  if sep.isEmpty then [] :: (s.map fun c => [c]) ++ [[]] else splitOnFrom sep 0 [] s

/-- What stands before and after the first occurrence of `sep`. -/
def cutAt? (sep : List Char) : List Char → Option (List Char × List Char)
  | [] => if sep.isEmpty then some ([], []) else none
  | c :: r =>
    match sep.isPrefixOf? (c :: r) with
    | some after => some ([], after)
    | none => (cutAt? sep r).map fun (before, after) => (c :: before, after)

/-- The maximal runs of characters that `p` does not hold of. -/
def wordsFrom (p : Char → Bool) (word : List Char) : List Char → List (List Char)
  | [] => if word.isEmpty then [] else [word.reverse]
  | c :: r =>
    if p c then (if word.isEmpty then wordsFrom p [] r else word.reverse :: wordsFrom p [] r)
    else wordsFrom p (c :: word) r

/-- The words of a text: its maximal runs of characters that `p` does not hold of. -/
def words (p : Char → Bool) (s : List Char) : List (List Char) := wordsFrom p [] s

end TestImpact.Text
