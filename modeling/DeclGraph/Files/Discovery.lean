import DeclGraph.Config.Basic
import DeclGraph.Files.Folder
import DeclGraph.Files.Ignore

/-! Finding the source files below a root: all files in a known language that are neither hidden nor
left out by an ignore file. -/
namespace DeclGraph.Files

def ignoreFiles : List (List String) :=
  [[".ignore"], [".gitignore"], [".git", "info", "exclude"]]

def afterText? (beginning text : String) : Option String :=
  if text.startsWith beginning then some (String.ofList (text.toList.drop beginning.length)) else none

def withoutDot (path : String) : String :=
  (afterText? "./" path).getD path

/-- A path as the rules in a directory see it. The directory's own path is taken from it as a text:
of either path one mark of the current directory is dropped before, and of the path another one. -/
def seenFrom (directory path : String) : String :=
  let path := withoutDot (withoutDot path)
  let directory := withoutDot directory
  if directory == "." || !path.contains '/' then path
  else
    match afterText? directory path with
    | some below => (afterText? "/" below).getD below
    | none => path

structure Root where
  /-- Its path, as it is written. -/
  path : String
  location : Location

namespace Folder

def rules (folder : Folder) (directory : Location) (file : List String) : List IgnoreRule :=
  match folder.get? (directory ++ file) with
  | some content => IgnoreRule.ofBytes content.data
  | none => []

/-- The verdict of the ignore files in the root and below it on a path that lies below the root. The
nearest one that has a verdict counts; `depth` is how many parts of the path lie above the
directories still to be asked. -/
def verdictBelow? (folder : Folder) (file : List String) (root : Root) (path : List String)
    (isDirectory : Bool) : Nat → Option Verdict
  | 0 => none
  | depth + 1 =>
    let directory :=
      if depth = 0 then root.path else joinPath root.path ("/".intercalate (path.take depth))
    let rules := folder.rules (root.location ++ path.take depth) file
    let seen := seenFrom directory (joinPath root.path ("/".intercalate path))
    (IgnoreRule.verdict? rules seen isDirectory).or
      (folder.verdictBelow? file root path isDirectory depth)

def verdictAbove? (folder : Folder) (file : List String) (location : Location) (isDirectory : Bool) :
    Nat → Option Verdict
  | 0 => none
  | depth + 1 =>
    let rules := folder.rules (location.take depth) file
    (IgnoreRule.verdict? rules ("/".intercalate (location.drop depth)) isDirectory).or
      (folder.verdictAbove? file location isDirectory depth)

def verdict? (folder : Folder) (root : Root) (path : List String) (isDirectory : Bool)
    (file : List String) : Option Verdict :=
  (folder.verdictBelow? file root path isDirectory path.length).or
    (folder.verdictAbove? file (root.location ++ path) isDirectory root.location.length)

def isHidden (name : String) : Bool :=
  name.startsWith "." && !name.endsWith "."

/-- Whether a path below a root is passed over, for itself and not for a directory above it. A hidden
one is taken only if a rule says so. -/
def isSkipped (folder : Folder) (root : Root) (path : List String) (isDirectory : Bool) : Bool :=
  match ignoreFiles.findSome? (folder.verdict? root path isDirectory) with
  | some .left => true
  | some .taken => false
  | none => isHidden (path.getLastD "")

def isReached (folder : Folder) (root : Root) (path : List String) : Bool :=
  !folder.isSkipped root path false &&
    (List.range path.length).all fun depth =>
      depth == 0 || !folder.isSkipped root (path.take depth) true

def root? (folder : Folder) (path : String) : Option Root :=
  if path.isEmpty then none
  else (folder.locate? path).bind fun location =>
    if folder.isDirectory location then some { path, location } else none

end Folder

structure SourceFile where
  path : String
  /-- The path below the root, with slashes only. -/
  relative : String
  language : Language
  content : Content

def select? (indexing : Indexing) (root : Root) (path : List String) (content : Content) :
    Option SourceFile :=
  let below := "/".intercalate path
  let relative := below.map fun c => if c == '\\' then '/' else c
  (language? relative).bind fun language =>
    if (indexing.excludeTests && isTestPath relative) || indexing.maxFileBytes.toNat < content.size
    then none
    else some { path := joinPath root.path below, relative, language, content }

def discover (folder : Folder) (indexing : Indexing) (path : String) : List SourceFile :=
  match folder.root? path with
  | none => []
  | some root =>
    let found := folder.files.filterMap fun (location, content) =>
      let below := location.drop root.location.length
      if root.location.isPrefixOf location && !below.isEmpty && folder.isReached root below then
        select? indexing root below content
      else none
    found.mergeSort fun a b => a.relative ≤ b.relative

end DeclGraph.Files
