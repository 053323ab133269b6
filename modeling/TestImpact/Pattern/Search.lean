import Std.Data.TreeSet
import TestImpact.Pattern.Syntax

/-!
# Searching for a pattern

A search plan is a pattern whose repetitions are written out and whose forks carry marks. A search
follows the preferred way at each fork first and turns back where it fails; it comes to one fork at
one place of the text at most once. A second arrival could only fail again or go round in a circle,
so the search ends, and the match it finds is the preferred one. What has failed from one place
fails from the later ones too: they keep the forks come to, and the search for the first match takes
a number of steps bounded by the size of the plan times the length of the text.
-/

namespace TestImpact

/-- A pattern prepared for the search. -/
inductive Plan
  | empty
  | one (set : CharSet)
  | check (a : Assertion)
  | seq (first second : Plan)
  /-- The first way is preferred to the second. -/
  | fork (mark : Nat) (first second : Plan)
  /-- Any number of rounds; one more round is preferred to going on if `greedy`. -/
  | star (mark : Nat) (greedy : Bool) (body : Plan)
  | group (index : Nat) (body : Plan)
  deriving Repr

namespace Plan

/-- A fork between a way and nothing. -/
def optional (mark : Nat) (greedy : Bool) (way : Plan) : Plan :=
  if greedy then .fork mark way .empty else .fork mark .empty way

/-- `n` copies one after another, with their marks counted on from `mark`. -/
def copies (plan : Nat → Plan × Nat) : Nat → Nat → Plan × Nat
  | 0, mark => (.empty, mark)
  | n + 1, mark =>
    let (first, mark) := plan mark
    let (rest, mark) := copies plan n mark
    (.seq first rest, mark)

/-- Up to `n` copies one after another, with their marks counted on from `mark`. -/
def optionals (plan : Nat → Plan × Nat) (greedy : Bool) : Nat → Nat → Plan × Nat
  | 0, mark => (.empty, mark)
  | n + 1, mark =>
    let (first, next) := plan (mark + 1)
    let (rest, next) := optionals plan greedy n next
    (optional mark greedy (.seq first rest), next)

/-- At least one round of `body`, then any number of further rounds of the same plan. -/
def rounds (mark : Nat) (greedy : Bool) (body : Plan) : Plan := .seq body (.star mark greedy body)

end Plan

/-- The search plan of a pattern, with its marks counted on from the given one. If the repeated
pattern can match the empty piece, a fork decides on the first round, so that an empty first round
keeps its preference over leaving the repetition out. -/
def Pattern.plan : Pattern → Nat → Plan × Nat
  | .empty, mark => (.empty, mark)
  | .one set, mark => (.one set, mark)
  | .check a, mark => (.check a, mark)
  | .seq p q, mark =>
    let (first, mark) := p.plan mark
    let (second, mark) := q.plan mark
    (.seq first second, mark)
  | .alt p q, mark =>
    let (first, next) := p.plan (mark + 1)
    let (second, next) := q.plan next
    (.fork mark first second, next)
  | .group index p, mark =>
    let (body, mark) := p.plan mark
    (.group index body, mark)
  | .repeated p 0 none greedy, mark =>
    if p.nullable then
      let (body, next) := p.plan (mark + 2)
      (.optional mark greedy (.rounds (mark + 1) greedy body), next)
    else
      let (body, next) := p.plan (mark + 1)
      (.star mark greedy body, next)
  | .repeated p (least + 1) none greedy, mark =>
    let (start, mark) := Plan.copies p.plan least mark
    let (body, next) := p.plan (mark + 1)
    (.seq start (.rounds mark greedy body), next)
  | .repeated p least (some most) greedy, mark =>
    let (start, mark) := Plan.copies p.plan least mark
    let (rest, mark) := Plan.optionals p.plan greedy (most - least) mark
    (.seq start rest, mark)

/-- A place in a text: how many characters stand before it, the last of them, and what follows. -/
structure Cursor where
  position : Nat
  before : Option Char
  rest : List Char

/-- The place before a whole text. -/
def Cursor.start (s : List Char) : Cursor := ⟨0, none, s⟩

/-- A piece of a text that a group has matched. -/
structure Capture where
  group : Nat
  start : Nat
  stop : Nat
  deriving DecidableEq, Repr

/-- A way through a plan: where it has got to and what its groups have matched, newest first. -/
structure Trail where
  cursor : Cursor
  captures : List Capture

/-- The forks already come to, each with the place in the text. -/
abbrev Visited := Std.TreeSet (Nat × Nat) lexOrd.compare

/-- A search that finds a trail or fails, and tells which forks it has come to. -/
abbrev Search := Visited → Option Trail × Visited

namespace Search

/-- The search that fails. -/
def fail : Search := fun visited => (none, visited)

/-- The second search in case the first one fails. -/
def orElse (first second : Search) : Search := fun visited =>
  match first visited with
  | (some trail, visited) => (some trail, visited)
  | (none, visited) => second visited

/-- Go on from a fork unless the search has been there already. -/
def once (mark position : Nat) (next : Search) : Search := fun visited =>
  if visited.contains (mark, position) then (none, visited)
  else next (visited.insert (mark, position))

/-- Rounds of `body` before going on to `next`. The bound is never reached: a round that ends where
it began is stopped at the fork, so it has to exceed the number of characters left only. -/
def rounds (mark : Nat) (greedy : Bool) (body : (Trail → Search) → Trail → Search)
    (next : Trail → Search) : Nat → Trail → Search
  | 0, _ => fail
  | bound + 1, trail =>
    let again := body (rounds mark greedy body next bound) trail
    once mark trail.cursor.position
      (if greedy then again.orElse (next trail) else (next trail).orElse again)

end Search

namespace Plan

/-- Follow a plan from a trail, and go on to `next` where it ends. -/
def follow : Plan → (Trail → Search) → Trail → Search
  | .empty, next, trail => next trail
  | .one set, next, trail =>
    match trail.cursor.rest with
    | [] => .fail
    | c :: rest =>
      if set.contains c then
        next { trail with cursor := ⟨trail.cursor.position + 1, some c, rest⟩ }
      else .fail
  | .check a, next, trail =>
    if a.holds trail.cursor.before trail.cursor.rest.head? then next trail else .fail
  | .seq first second, next, trail => first.follow (second.follow next) trail
  | .fork mark first second, next, trail =>
    .once mark trail.cursor.position ((first.follow next trail).orElse (second.follow next trail))
  | .star mark greedy body, next, trail =>
    .rounds mark greedy body.follow next (trail.cursor.rest.length + 1) trail
  | .group index body, next, trail =>
    body.follow
      (fun done =>
        let capture := ⟨index, trail.cursor.position, done.cursor.position⟩
        next { done with captures := capture :: done.captures })
      trail

/-- Search for the preferred match that begins at the cursor. -/
def matchAt (plan : Plan) (cursor : Cursor) : Search :=
  plan.follow (fun trail visited => (some trail, visited)) ⟨cursor, []⟩

end Plan

/-- A piece of a text that a pattern matches, with the pieces of its groups, newest first. -/
structure Match where
  start : Nat
  stop : Nat
  captures : List Capture
  deriving DecidableEq, Repr

namespace Match

/-- What the match tells of a group: the last piece that the group has matched. -/
def capture? (m : Match) (group : Nat) : Option Capture := m.captures.find? (·.group = group)

/-- The text of a group in a match within `s`. -/
def text? (m : Match) (s : List Char) (group : Nat) : Option (List Char) :=
  (m.capture? group).map fun c => (s.drop c.start).take (c.stop - c.start)

end Match

namespace Plan

/-- The first place from `position` on where a match begins, and the preferred match there, after
searches that have come to the forks in `visited` and failed. -/
def firstFrom? (plan : Plan) (visited : Visited) (position : Nat) (before : Option Char) :
    List Char → Option (Nat × Trail)
  | [] => (plan.matchAt ⟨position, before, []⟩ visited).1.map (position, ·)
  | c :: rest =>
    match plan.matchAt ⟨position, before, c :: rest⟩ visited with
    | (some trail, _) => some (position, trail)
    | (none, visited) => plan.firstFrom? visited (position + 1) (some c) rest

/-- The matches from a cursor on that do not overlap, `last` being the end of the one before. An
empty match where the last one ended does not count. The bound has to exceed twice the number of
characters left. -/
def matchesFrom (plan : Plan) : Nat → Option Nat → Cursor → List Match
  | 0, _, _ => []
  | bound + 1, last, cursor =>
    match plan.firstFrom? {} cursor.position cursor.before cursor.rest with
    | none => []
    | some (start, trail) =>
      let stop := trail.cursor.position
      if stop = start ∧ last = some start then
        match cursor.rest with
        | [] => []
        | c :: rest => plan.matchesFrom bound last ⟨cursor.position + 1, some c, rest⟩
      else ⟨start, stop, trail.captures⟩ :: plan.matchesFrom bound (some stop) trail.cursor

end Plan

/-- A pattern ready to be searched for, with the names of its groups. -/
structure Expression where
  body : Pattern
  names : List (String × Nat)
  plan : Plan := (body.plan 0).1
  deriving Repr

namespace Expression

/-- The number of the group of a name. -/
def groupNamed? (e : Expression) (name : String) : Option Nat := e.names.lookup name

/-- The matches in a text from left to right that do not overlap. -/
def allMatches (e : Expression) (s : List Char) : List Match :=
  e.plan.matchesFrom (2 * s.length + 3) none (.start s)

end Expression

end TestImpact
