import DeclGraph.Extract.File
import DeclGraph.Files.Discovery
import DeclGraph.Refresh
import DeclGraph.Store.Address

/-! A working directory with the graph databases kept in it. One store is open at a time; the others
wait in their files. -/
namespace DeclGraph

structure OpenFile where
  location : Files.Location
  /-- Whether the file has become a database only now. -/
  isNew : Bool
  readOnly : Bool

structure Workspace where
  folder : Files.Folder := {}
  current : Option OpenFile := none
  store : Store := .empty

namespace Workspace

/-- Puts the open store into its file. A file that has been removed stays so, and one that has been
written over is a database again only if it became one with this store. -/
def save (workspace : Workspace) : Workspace :=
  match workspace.current with
  | none => workspace
  | some file =>
    let kept := match workspace.folder.get? file.location with
      | some (.database _) => !file.readOnly
      | some _ => file.isNew
      | none => false
    if kept then
      { workspace with folder := workspace.folder.put file.location (.database workspace.store) }
    else workspace

def close (workspace : Workspace) : Workspace :=
  { workspace.save with current := none, store := .empty }

/-- Where the name of a database leads. Upward parts cancel those before them, whether or not these
exist; only what is no directory stops the way. -/
def databaseLocation? (folder : Files.Folder) (name : String) : Option Files.Location :=
  (Files.parts name).foldlM
    (fun location part =>
      if part == Files.upward then some (Files.above location)
      else if folder.isFile location || Files.longestName < part.utf8ByteSize then none
      else some (location ++ [part]))
    (Files.origin name)

def longestDatabaseName : Nat := Files.longestName - "-journal".utf8ByteSize

def beginDatabase (workspace : Workspace) (location : Files.Location) (readOnly : Bool) :
    Except Error Unit × Workspace :=
  let failed (error : Error) : Except Error Unit × Workspace :=
    if workspace.folder.isFile location then (.error error, workspace)
    else
      -- An empty file is left.
      (.error error, { workspace with folder := workspace.folder.put location (.text "" none) })
  if readOnly then failed .readOnlyDatabase
  else if longestDatabaseName < (location.getLastD "").utf8ByteSize then
    failed .unaccompaniedDatabase
  else
    (.ok (),
      { workspace with
        folder := workspace.folder.put location (.database .empty)
        current := some { location, isNew := true, readOnly }
        store := .empty })

def openAt (workspace : Workspace) (text : String) (address : Address) :
    Except Error Unit × Workspace :=
  let readOnly := address.isReadOnly
  let unopened : Except Error Unit × Workspace := (.error (.unopenedDatabase text), workspace)
  match address.file with
  | none => (if readOnly then .error .readOnlyDatabase else .ok (), workspace)
  | some name =>
    match databaseLocation? workspace.folder name with
    | none => unopened
    | some location =>
      if workspace.folder.isDirectory location then
        if address.access == .readOnly then (.error .unreadableDatabase, workspace) else unopened
      else
        match workspace.folder.get? location with
        | some (.database store) =>
          (.ok (), { workspace with current := some { location, isNew := false, readOnly }, store })
        | some content =>
          -- One byte counts as an empty file.
          if 1 < content.size then (.error .foreignDatabase, workspace)
          else workspace.beginDatabase location readOnly
        | none =>
          if address.access == .create && workspace.folder.isDirectory (Files.above location) then
            workspace.beginDatabase location readOnly
          else unopened

def zeroPosition? (text : String) : Option Nat :=
  if text.contains '\x00' then some ((text.splitOn "\x00").headD "").utf8ByteSize else none

/-- Opens a database. The directory of its file is made first, as if the address were a path. Whether
or not that succeeds, the store that was open is left before. -/
def openDatabase (workspace : Workspace) (text : String) : Except Error Unit × Workspace :=
  let closed := workspace.close
  if (Files.parts text).dropLast.any (·.contains '\x00') then (.error .zeroInPath, closed)
  else
    let (obstacle?, folder) := closed.folder.ensureParent text
    let closed := { closed with folder }
    match obstacle?, zeroPosition? text with
    | some obstacle, _ => (.error obstacle.toError, closed)
    | none, some position => (.error (.zeroInAddress position), closed)
    | none, none =>
      match Address.ofText text with
      | .error error => (.error error, closed)
      | .ok address => closed.openAt text address

def commit {α : Type} (workspace : Workspace) (writes : Bool) (outcome : Except Error (α × Store)) :
    Except Error α × Workspace :=
  if writes && workspace.current.any OpenFile.readOnly then (.error .readOnlyDatabase, workspace)
  else
    match outcome with
    | .ok (answer, store) => (.ok answer, { workspace with store })
    | .error error => (.error error, workspace)

def writeFile (workspace : Workspace) (path : String) (content : Files.Content) : Workspace :=
  { workspace with folder := workspace.folder.write path content }

def removeFile (workspace : Workspace) (path : String) : Workspace :=
  { workspace with folder := workspace.folder.remove path }

def factsOf? (indexing : Indexing) (file : Files.SourceFile) : Option Extract.FileFacts :=
  match file.content with
  -- What is no text cannot be parsed.
  | .bytes _ | .database _ => none
  | .text _ none => some { filename := file.relative, language := file.language }
  | .text _ (some tree) =>
    some (Extract.fileFacts file.relative file.language indexing.storeSource tree)

def refresh (workspace : Workspace) (indexing : Indexing) (name root : String) :
    Except Error RefreshReport × Workspace :=
  let files := Files.discover workspace.folder indexing root
  workspace.commit true
    (workspace.store.refresh name root files.length (files.filterMap (factsOf? indexing)))

end Workspace

end DeclGraph
