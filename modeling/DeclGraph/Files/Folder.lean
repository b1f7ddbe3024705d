import DeclGraph.Error
import DeclGraph.Files.Path
import DeclGraph.Store.Basic
import DeclGraph.Syntax.Node

/-! The tree of files that a session works in: its files with their contents, and its directories. -/
namespace DeclGraph.Files

inductive Content where
  | text (source : String) (tree : Option Syntax.Node)
  | bytes (data : ByteArray)
  | database (store : Store)

namespace Content

def data : Content → ByteArray
  | .text source _ => source.toUTF8
  | .bytes data => data
  | .database _ => ⟨#[0xFF]⟩

def pageSize : Nat := 4096

def size : Content → Nat
  | .text source _ => source.utf8ByteSize
  | .bytes data => data.size
  | .database _ => pageSize

end Content

structure Folder where
  files : List (Location × Content) := []
  directories : List Location := []

inductive Obstacle where
  | missingParent
  | fileOnTheWay
  | taken
  | longName
  deriving DecidableEq, Repr

def Obstacle.toError : Obstacle → Error
  | .missingParent => .missingFile
  | .fileOnTheWay => .fileOnTheWay
  | .taken => .fileInTheWay
  | .longName => .longFileName

namespace Folder

def get? (folder : Folder) (location : Location) : Option Content :=
  folder.files.lookup location

def isFile (folder : Folder) (location : Location) : Bool :=
  (folder.get? location).isSome

/-- Whether a place is a directory: one that has been made, the working directory or one above it, or
the root of absolute paths. -/
def isDirectory (folder : Folder) (location : Location) : Bool :=
  location.all (· == upward) || location == absoluteRoot || folder.directories.contains location

def walk (folder : Folder) : Location → List String → Except Obstacle Location
  | location, [] => .ok location
  | location, part :: rest =>
    if folder.isFile location then .error .fileOnTheWay
    else if !folder.isDirectory location then .error .missingParent
    else if part == upward then folder.walk (above location) rest
    else if longestName < part.utf8ByteSize then .error .longName
    else folder.walk (location ++ [part]) rest

def locate? (folder : Folder) (path : String) : Option Location :=
  (folder.walk (origin path) (parts path)).toOption

def makeDirectory (folder : Folder) (start : Location) (route : List String) :
    Except Obstacle Folder := do
  let location ← folder.walk start route
  if folder.isFile location || folder.isDirectory location then .error .taken
  else .ok { folder with directories := location :: folder.directories }

def leadsToDirectory (folder : Folder) (start : Location) (route : List String) : Bool :=
  match folder.walk start route with
  | .ok location => folder.isDirectory location
  | .error _ => false

def ensureOne (folder : Folder) (start : Location) (reversed : List String) :
    Option Obstacle × Folder :=
  match folder.makeDirectory start reversed.reverse with
  | .ok made => (none, made)
  | .error obstacle =>
    (if folder.leadsToDirectory start reversed.reverse then none else some obstacle, folder)

/-- Makes a directory with those on the way to it; the parts of its path are given last first. What has
been made before an obstacle stays. -/
def ensureDirectory (folder : Folder) (start : Location) : List String → Option Obstacle × Folder
  | [] => (none, folder)
  | part :: before =>
    match folder.ensureOne start (part :: before) with
    | (some .missingParent, _) =>
      match folder.ensureDirectory start before with
      | (none, made) => made.ensureOne start (part :: before)
      | (some obstacle, made) => (some obstacle, made)
    | outcome => outcome

def ensureParent (folder : Folder) (path : String) : Option Obstacle × Folder :=
  folder.ensureDirectory (origin path) ((parts path).reverse.drop 1)

def put (folder : Folder) (location : Location) (content : Content) : Folder :=
  { folder with files := folder.files.filter (·.1 != location) ++ [(location, content)] }

def write (folder : Folder) (path : String) (content : Content) : Folder :=
  match folder.ensureParent path with
  | (some _, made) => made
  | (none, made) =>
    match made.locate? path with
    | some location => if made.isDirectory location then made else made.put location content
    | none => made

def remove (folder : Folder) (path : String) : Folder :=
  match folder.locate? path with
  | some location => { folder with files := folder.files.filter (·.1 != location) }
  | none => folder

end Folder

end DeclGraph.Files
