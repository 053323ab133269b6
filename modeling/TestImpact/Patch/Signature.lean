import TestImpact.Pattern.Parser

/-!
# Signatures of methods

A signature matcher tells which method, if any, a line of source text declares. The usual matcher
searches the line for a pattern and passes over matches that are statements.
-/

namespace TestImpact.Patch

/-- The name of the method that a line declares. -/
abbrev SignatureMatcher := List Char → Option String

/-- Words that can stand where a type or a name is expected but begin a statement. -/
def statementKeywords : List String :=
  ["if", "else", "for", "while", "do", "switch", "case", "catch", "return", "new", "throw",
    "synchronized", "assert"]

/-- Whether a text is one of the words that begin a statement. -/
def isStatementKeyword (s : List Char) : Bool := statementKeywords.contains (String.ofList s)

/-- The words that may stand before a type. -/
def modifiers : List String := ["public", "private", "protected", "static"]

/-- The characters that the text of a type is made of: those of words, and angle brackets. -/
def typeChars : CharSet :=
  .ofRanges (CharSet.word.ranges ++ [CharRange.single '<', CharRange.single '>'])

/-- The pattern of a declaration, written
`\b(?:public|private|protected|static|\s)*\s*(?P<type>[\w<>]+)\s+(?P<name>\w+)\s*\(`: modifiers and
blanks, a type, blanks, a name and an opening parenthesis. -/
def declaration : Expression where
  body := .seqs [
    .check .wordBoundary,
    .many (.alts (modifiers.map .literal ++ [.one .space])),
    .many (.one .space),
    .group 1 (.many1 (.one typeChars)),
    .many1 (.one .space),
    .group 2 (.many1 (.one .word)),
    .many (.one .space),
    .one (.single '(')]
  names := [("type", 1), ("name", 2)]

/-- What a match says about a declaration: the text of the group `name`, or else of the first group.
A match without it says nothing, and neither does one whose name or type begins a statement. -/
def declaredName? (e : Expression) (line : List Char) (m : Match) : Option String :=
  let text := m.text? line
  match ((e.groupNamed? "name").bind text).or (text 1) with
  | none => none
  | some name =>
    let type := (e.groupNamed? "type").bind text
    if isStatementKeyword name || type.any isStatementKeyword then none
    else some (String.ofList name)

/-- The matcher of a pattern: the first match that declares a method decides. -/
def SignatureMatcher.ofExpression (e : Expression) : SignatureMatcher :=
  fun line => (e.allMatches line).findSome? (declaredName? e line)

/-- The matcher for declarations of the usual shape. -/
def SignatureMatcher.default : SignatureMatcher := .ofExpression declaration

end TestImpact.Patch
