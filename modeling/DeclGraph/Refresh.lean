import DeclGraph.Config.Basic
import DeclGraph.Extract.File
import DeclGraph.Store.Calls
import DeclGraph.Store.Parents
import DeclGraph.Store.Projects

/-! Refreshing a project: what was extracted from its files replaces what the store held. The
declarations go in first, then the calls, then the parents, which are linked last. -/
namespace DeclGraph

structure RefreshReport where
  projectId : Int
  generation : Int
  filesScanned : Nat
  filesIndexed : Nat
  filesFailed : Nat
  entities : Nat
  staleEntitiesRemoved : Nat
  calls : Nat
  unresolvedCalls : Nat
  parents : InsertReport
  linking : LinkReport
  deriving DecidableEq, Repr

namespace Refresh

open Extract

def draftOf (file : FileFacts) (definition : Definition) : EntityDraft where
  language := file.language
  symbol := definition.symbol
  kind := definition.kind
  filename := file.filename
  startLine := definition.startLine
  endLine := definition.endLine
  source := definition.source

def drafts (files : List FileFacts) : List EntityDraft :=
  files.flatMap fun file => file.definitions.map (draftOf file)

/-- Each file with its offset: where its definitions begin among those of all files. -/
def withOffsets : Nat → List FileFacts → List (FileFacts × Nat)
  | _, [] => []
  | offset, file :: rest => (file, offset) :: withOffsets (offset + file.definitions.length) rest

structure Target where
  id : Int
  symbol : String
  kind : EntityKind
  filename : String
  deriving DecidableEq, Repr

def targets (drafts : List EntityDraft) (ids : List Int) : List Target :=
  ((drafts.zip ids).map fun (draft, id) =>
    { id, symbol := draft.symbol, kind := draft.kind, filename := draft.filename : Target }).mergeSort
      fun a b => a.id ≤ b.id

/-- The target a symbol means in a file: one of the same file, else the first of all. -/
def lookup (targets : List Target) (symbol filename : String) (kinds : List EntityKind) :
    Option Int :=
  let accepted := targets.filter fun target =>
    target.symbol == symbol && kinds.contains target.kind
  ((accepted.find? (·.filename == filename)).or accepted.head?).map (·.id)

def callDrafts (targets : List Target) (ids : List Int) (file : FileFacts) (offset : Nat) :
    List CallDraft :=
  file.calls.filterMap fun call =>
    ids[offset + call.caller]?.map fun callerId =>
      { callerId
        calleeId := lookup targets call.callee file.filename [.function]
        calleeSymbol := call.callee
        line := call.line
        comment := call.snippet }

def parentDraft (childId : Option Int) (parent : Parent) : ParentDraft where
  childId := childId
  symbol := some parent.symbol
  heritage := some parent.heritage

def parentDrafts (targets : List Target) (ids : List Int) (file : FileFacts) (offset : Nat) :
    List ParentDraft :=
  file.definitions.zipIdx.flatMap (fun (definition, position) =>
    definition.parents.map (parentDraft ids[offset + position]?)) ++
  file.impls.flatMap fun block =>
    block.parents.map (parentDraft (lookup targets block.subject file.filename EntityKind.types))

end Refresh

open Refresh in
def Store.refresh (store : Store) (name rootPath : String) (scanned : Nat)
    (files : List Extract.FileFacts) : Except Error (RefreshReport × Store) := do
  let (project, store) := store.putProject name rootPath
  let (generation, store) ← store.beginGeneration project.id
  let drafts := drafts files
  -- What the files still define gets the new generation; what keeps an old one is purged.
  let (ids, store) := store.putEntities project.id generation drafts
  let (removed, store) := store.purgeStale project.id generation
  let targets := targets drafts ids
  let placed := withOffsets 0 files
  let calls := placed.flatMap fun (file, offset) => callDrafts targets ids file offset
  let (callCount, store) := store.replaceCalls project.id calls
  let parents := placed.flatMap fun (file, offset) => parentDrafts targets ids file offset
  let (insertion, store) := store.replaceParents project.id parents
  let (linking, store) := store.linkParents project.id
  .ok (
    { projectId := project.id
      generation
      filesScanned := scanned
      filesIndexed := files.length
      filesFailed := scanned - files.length
      entities := ids.length
      staleEntitiesRemoved := removed
      calls := callCount
      unresolvedCalls := (calls.filter (·.calleeId.isNone)).length
      parents := insertion
      linking },
    store)

end DeclGraph
