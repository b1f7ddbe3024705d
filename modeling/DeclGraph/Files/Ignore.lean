import DeclGraph.Files.Glob
import DeclGraph.Text.Blank

/-! Ignore files. Each line of one is a rule about the paths below its directory; of the rules that
apply to a path the last one counts. -/
namespace DeclGraph.Files

structure IgnoreRule where
  tokens : List GlobToken
  /-- The rule takes paths in again instead of leaving them out. -/
  includes : Bool
  directoriesOnly : Bool

inductive Verdict where
  | left
  | taken
  deriving DecidableEq, Repr

namespace IgnoreRule

/-- A pattern without a slash fits at any depth. One that ends in a double star fits what is inside
a directory and not the directory itself. -/
def anchor (anchored : Bool) (pattern : List Char) : List Char :=
  let pattern :=
    if anchored || pattern.contains '/' || pattern == "**".toList then pattern
    else "**/".toList ++ pattern
  if "/**".toList.isSuffixOf pattern then pattern ++ "/*".toList else pattern

def dropSlash (pattern : List Char) : List Char :=
  let pattern := pattern.dropLast
  if pattern.getLast? == some '\\' then pattern.dropLast else pattern

def ofLine? (line : String) : Option IgnoreRule :=
  -- A blank at the end counts if it is escaped.
  let trimmed := if line.endsWith "\\ " then line.toList else (Text.trimEnd line).toList
  if trimmed.isEmpty || line.startsWith "#" then none
  else
    let (includes, pattern) := match trimmed with
      | '!' :: rest => (true, rest)
      | '\\' :: '!' :: rest => (false, '!' :: rest)
      | '\\' :: '#' :: rest => (false, '#' :: rest)
      | rest => (false, rest)
    let (anchored, pattern) := match pattern with
      | '/' :: rest => (true, rest)
      | rest => (false, rest)
    let directoriesOnly := pattern.getLast? == some '/'
    let pattern := if directoriesOnly then dropSlash pattern else pattern
    (Glob.parse? (anchor anchored pattern)).map fun tokens => { tokens, includes, directoriesOnly }

def applies (rule : IgnoreRule) (path : List UInt8) (isDirectory : Bool) : Bool :=
  (isDirectory || !rule.directoriesOnly) && Glob.fits rule.tokens path

/-- The lines of a file, up to the first that is no text; `line` holds the bytes of the current one,
last first. A carriage return before a line feed belongs to the break. -/
def linesOf : List UInt8 → List UInt8 → List String
  | line, [] =>
    if line.isEmpty then [] else (String.fromUTF8? ⟨line.reverse.toArray⟩).toList
  | line, b :: rest =>
    if b == 0x0A then
      let line := if line.head? == some 0x0D then line.drop 1 else line
      match String.fromUTF8? ⟨line.reverse.toArray⟩ with
      | some text => text :: linesOf [] rest
      | none => []
    else linesOf (b :: line) rest

def dropMarks : List String → List String
  | [] => []
  | line :: rest => String.ofList (line.toList.dropWhile (·.toNat == 0xFEFF)) :: rest

def ofBytes (data : ByteArray) : List IgnoreRule :=
  (dropMarks (linesOf [] data.toList)).filterMap ofLine?

def verdict? (rules : List IgnoreRule) (path : String) (isDirectory : Bool) : Option Verdict :=
  (rules.reverse.find? (·.applies path.toUTF8.toList isDirectory)).map fun rule =>
    if rule.includes then .taken else .left

end IgnoreRule

end DeclGraph.Files
