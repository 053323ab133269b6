import TestImpact.Text.Blank

/-!
# Qualified names

A method is named by the namespace of its file, which follows from the file's path, its own name
and a pair of parentheses. A name is looked up as it is, then without the parentheses, then without
the namespace.
-/

namespace TestImpact.QualifiedName

/-- A path whose components are separated by slashes only. -/
def slashed (path : List Char) : List Char := path.map fun c => if c = '\\' then '/' else c

/-- A path without the steps `./` at its start. -/
def dropHere : List Char → List Char
  | '.' :: '/' :: rest => dropHere rest
  | path => path

/-- A path without the first of the roots that it begins with. -/
def dropRoot (roots : List (List Char)) (path : List Char) : List Char :=
  (roots.findSome? (List.isPrefixOf? · path)).getD path

/-- A path without an extension at its end. -/
def dropExtension (extension path : List Char) : List Char :=
  (List.isSuffixOf? extension path).getD path

/-- The namespace of the file at a path. -/
def ofPath (roots : List String) (extension path : String) : String :=
  let path := dropHere (slashed (Text.trim path.toList))
  let path := dropExtension extension.toList (dropRoot (roots.map (·.toList)) path)
  String.ofList (path.map fun c => if c = '/' then '.' else c)

/-- The qualified name of a method, `namespaceName` being empty if there is none. -/
def ofMethod (namespaceName method : String) : String :=
  if namespaceName.isEmpty then method ++ "()" else namespaceName ++ "." ++ method ++ "()"

/-- The name without the parentheses at its end. -/
def bare (name : List Char) : List Char := (List.isSuffixOf? ['(', ')'] name).getD name

/-- What follows the last period of a name, if there is a period and something follows it. -/
def identifier? (name : List Char) : Option (List Char) :=
  if '.' ∈ name then
    let last := (name.reverse.takeWhile (· ≠ '.')).reverse
    if last.isEmpty then none else some last
  else none

/-- The names under which a method is looked up, the most specific first. -/
def lookupKeys (name : String) : List String :=
  let short := bare name.toList
  let shortened := if short = name.toList then [] else [String.ofList short]
  name :: shortened ++ ((identifier? short).map String.ofList).toList

end TestImpact.QualifiedName
