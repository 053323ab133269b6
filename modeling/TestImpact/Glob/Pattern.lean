/-!
# Path patterns

A path pattern matches whole paths. `?` stands for any character, `*` for any text, `[…]` for a
character of a class, `[!…]` for any other character, and `**`, which has to be a whole component,
for any number of components. No character is special in the path itself.
-/

namespace TestImpact.Glob

/-- An item of a class. -/
inductive ClassItem
  | single (c : Char)
  | range (first last : Char)
  deriving DecidableEq, Repr

/-- Whether a character belongs to an item. -/
def ClassItem.contains (x : Char) : ClassItem → Bool
  | .single c => x = c
  | .range first last => first ≤ x && x ≤ last

/-- A part of a pattern. -/
inductive Token
  | char (c : Char)
  | anyChar
  | anyText
  /-- Any number of whole components. -/
  | anyComponents
  | class (negated : Bool) (items : List ClassItem)
  deriving DecidableEq, Repr

/-- The items of a class. -/
def classItems : List Char → List ClassItem
  | a :: '-' :: b :: rest => .range a b :: classItems rest
  | c :: rest => .single c :: classItems rest
  | [] => []

/-- Cut a text at the first closing bracket behind its first character. -/
def cutClass? : List Char → Option (List Char × List Char)
  | [] => none
  | c :: rest =>
    match rest.dropWhile (· ≠ ']') with
    | [] => none
    | _ :: after => some (c :: rest.takeWhile (· ≠ ']'), after)

/-- Read the tokens of a pattern in at most `bound` steps, `before` being the last character
read. -/
def tokens (before : Option Char) : Nat → List Char → Option (List Token)
  | 0, _ => none
  | bound + 1, s =>
    match s with
    | [] => some []
    | '?' :: rest => (tokens (some '?') bound rest).map (.anyChar :: ·)
    | '*' :: '*' :: '*' :: _ => none
    | '*' :: '*' :: rest =>
      if before.all (· = '/') then
        match rest with
        | [] => some [.anyComponents]
        | '/' :: rest => (tokens (some '/') bound rest).map (.anyComponents :: ·)
        | _ => none
      else none
    | '*' :: rest => (tokens (some '*') bound rest).map (.anyText :: ·)
    | '[' :: '!' :: rest => do
      let (items, rest) ← cutClass? rest
      (tokens (some ']') bound rest).map (.class true (classItems items) :: ·)
    | '[' :: rest => do
      let (items, rest) ← cutClass? rest
      (tokens (some ']') bound rest).map (.class false (classItems items) :: ·)
    | c :: rest => (tokens (some c) bound rest).map (.char c :: ·)

/-- Read a pattern. -/
def parse? (pattern : String) : Option (List Token) :=
  tokens none (pattern.length + 1) pattern.toList

/-- Whether a token for a single character matches a character. -/
def Token.matchesChar (x : Char) : Token → Bool
  | .char c => x = c
  | .anyChar => true
  | .class negated items => items.any (·.contains x) != negated
  | _ => false

/-! ### Matching

What follows a place of the path is an end of it. Matching goes through the tokens from the last one
to the first and tells for every end of the path, from the whole path to the empty one, whether the
tokens match it; so every pair of a token and an end is looked at once. -/

/-- Which ends have an end within them that is matched. -/
def matchedWithin : List Bool → List Bool
  | [] => []
  | b :: bs =>
    let later := matchedWithin bs
    (b || later.headD false) :: later

/-- Which ends have an end within them that is matched and either follows a slash or is empty. -/
def matchedAtComponent : List Char → List Bool → List Bool
  | c :: s, _ :: bs =>
    let later := matchedAtComponent s bs
    (c = '/' && bs.headD false || later.headD false) :: later
  | _, bs => bs

/-- Which ends begin with a character of a token before an end that is matched. -/
def matchedAfter (t : Token) : List Char → List Bool → List Bool
  | c :: s, _ :: bs => (t.matchesChar c && bs.headD false) :: matchedAfter t s bs
  | _, _ => [false]

/-- Which ends of a path some tokens match. -/
def matchEnds (s : List Char) : List Token → List Bool
  | [] => List.replicate s.length false ++ [true]
  | t :: ts =>
    let ends := matchEnds s ts
    match t with
    | .anyText => matchedWithin ends
    | .anyComponents => List.zipWith (· || ·) ends (matchedAtComponent s ends)
    | t => matchedAfter t s ends

/-- Whether tokens match a whole text. -/
def matchTokens (ts : List Token) (s : List Char) : Bool := (matchEnds s ts).headD false

/-- Whether a pattern matches a path. A text that is no pattern matches nothing. -/
def matchesPath (pattern path : String) : Bool :=
  match parse? pattern with
  | some ts => matchTokens ts path.toList
  | none => false

/-- Whether one of some patterns matches a path. -/
def anyMatches (patterns : List String) (path : String) : Bool :=
  patterns.any fun pattern => matchesPath pattern path

/-- Which paths are looked at. -/
structure Filter where
  /-- Paths that are looked at, all of them if there is no pattern. -/
  includes : List String := []
  /-- Paths that are not looked at in any case. -/
  excludes : List String := []
  deriving DecidableEq, Repr

/-- Whether a path is looked at. -/
def Filter.accepts (f : Filter) (path : String) : Bool :=
  !anyMatches f.excludes path && (f.includes.isEmpty || anyMatches f.includes path)

end TestImpact.Glob
