import DeclGraph.Language

/-! Paths: their parts, the file name and the extension, and what these tell about a file. -/
namespace DeclGraph.Files

def parts (path : String) : List String :=
  (path.splitOn "/").filter fun part => part != "" && part != "."

def upward : String := ".."

def fileName? (path : String) : Option String :=
  (parts path).getLast?.filter (· != upward)

/-- What follows the last dot of a file name, unless that dot is its first character. -/
def extension? (path : String) : Option String :=
  (fileName? path).bind fun name =>
    let reversed := name.toList.reverse
    let stem := (reversed.dropWhile (· != '.')).drop 1
    if stem.isEmpty then none else some (String.ofList (reversed.takeWhile (· != '.')).reverse)

def language? (path : String) : Option Language :=
  (extension? path).bind fun extension => Language.ofExtension? ("." ++ extension)

def holds (text inner : List Char) : Bool :=
  match text with
  | [] => inner.isEmpty
  | _ :: rest => inner.isPrefixOf text || holds rest inner

def isTestPath (path : String) : Bool :=
  let segments := (path.map Char.toLower).splitOn "/"
  let name := segments.getLastD ""
  let stem := (name.splitOn ".").headD ""
  segments.dropLast.any (["test", "tests", "__tests__", "spec"].contains ·) ||
    name.startsWith "test_" || stem.endsWith "_test" || stem.endsWith "_spec" ||
    holds name.toList ".test.".toList || holds name.toList ".spec.".toList

/-- A place in the tree of files: the names that lead to it from the working directory. Those above the
working directory begin with upward parts, and those of absolute paths with a slash. -/
abbrev Location := List String

def absoluteRoot : Location := ["/"]

def origin (path : String) : Location :=
  if path.startsWith "/" then absoluteRoot else []

def above (location : Location) : Location :=
  if location == absoluteRoot then location
  else if location.getLast?.all (· == upward) then location ++ [upward]
  else location.dropLast

def longestName : Nat := 255

def joinPath (root below : String) : String :=
  if root.endsWith "/" then root ++ below else root ++ "/" ++ below

end DeclGraph.Files
