import TestImpact.Files.Access
import TestImpact.Files.Path

/-!
# Trees of files

A tree of files as a value, with the operations on files over it. A path is followed component by
component from the root, or from the current directory if it is relative; every component but the
last has to be a directory.
-/

namespace TestImpact.Files

/-- What stands at a place of a tree. The text of a file is absent if its bytes are no text. -/
inductive Node
  | directory
  | file (text : Option String)
  deriving DecidableEq, Repr

/-- A tree of files: what stands at the places that exist, the root excepted, each place given by
its components from the root; and the current directory. -/
structure Tree where
  nodes : List (List String × Node) := []
  current : List String := []
  deriving Repr

namespace Tree

/-- What stands at a place. -/
def node? (t : Tree) (place : List String) : Option Node :=
  if place.isEmpty then some .directory else t.nodes.lookup place

/-- Put something at a place. -/
def put (t : Tree) (place : List String) (node : Node) : Tree :=
  { t with nodes := (place, node) :: t.nodes.filter (·.1 ≠ place) }

/-- Follow components from a place that has been reached. The last component need not exist. -/
def follow (t : Tree) (place : List String) : List String → Except FileError (List String)
  | [] => .ok place
  | c :: rest =>
    match t.node? place with
    | none => .error .notFound
    | some (.file _) => .error .notDirectory
    | some .directory => t.follow (if c = ".." then place.dropLast else place ++ [c]) rest

/-- Whether a path has to be that of a directory: its last component is empty or a dot. -/
def endsInDirectory (path : String) : Bool :=
  match path.toList.reverse with
  | '/' :: _ | '.' :: '/' :: _ => true
  | _ => false

/-- The place of a path. -/
def place (t : Tree) (path : String) : Except FileError (List String) :=
  if path.isEmpty then .error .notFound
  else do
    let place ← t.follow (if Path.isAbsolute path then [] else t.current) (Path.components path)
    if endsInDirectory path then
      match t.node? place with
      | some (.file _) => .error .notDirectory
      | _ => pure place
    else pure place

/-- The text of the file at a path. -/
def readText (t : Tree) (path : String) : Except FileError String := do
  let place ← t.place path
  match t.node? place with
  | none => .error .notFound
  | some .directory => .error .isDirectory
  | some (.file none) => .error .notText
  | some (.file (some text)) => pure text

/-- The tree after a text has been written to a path. -/
def writeText (t : Tree) (path text : String) : Except FileError Tree :=
  match t.place path with
  | .error e => .error e
  | .ok place =>
    match t.node? place with
    | some .directory => .error .isDirectory
    | some (.file _) => .ok (t.put place (.file (some text)))
    | none =>
      if endsInDirectory path then .error .isDirectory
      else .ok (t.put place (.file (some text)))

/-- The tree with a new directory at a path. -/
def makeDirectory (t : Tree) (path : String) : Except FileError Tree := do
  let place ← t.place path
  match t.node? place with
  | some _ => .error .exists
  | none => pure (t.put place .directory)

/-- Whether a directory stands at a path. -/
def isDirectory (t : Tree) (path : String) : Bool :=
  match t.place path with
  | .ok place => t.node? place = some .directory
  | .error _ => false

/-- Make the directories at the paths given from the innermost outwards. A path whose directory
above does not exist waits for that to be made. The first tree is what has been made by then. -/
def makeDirectories (t : Tree) : List String → Tree × Except FileError Unit
  | [] => (t, .ok ())
  | path :: above =>
    if path.isEmpty then (t, .ok ())
    else
      match t.makeDirectory path with
      | .ok made => (made, .ok ())
      | .error .notFound =>
        match t.makeDirectories above with
        | (t, .error e) => (t, .error e)
        | (t, .ok ()) =>
          match t.makeDirectory path with
          | .ok made => (made, .ok ())
          | .error e => if t.isDirectory path then (t, .ok ()) else (t, .error e)
      | .error e => if t.isDirectory path then (t, .ok ()) else (t, .error e)

end Tree

end TestImpact.Files
