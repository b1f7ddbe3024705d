import DeclGraph.Entity
import DeclGraph.Error
import DeclGraph.Store.Table

/-! The store: four tables. Languages, kinds and heritages are stored as texts and lines as numbers of
any size; reading a row is what can fail. -/
namespace DeclGraph

structure EntityRow where
  id : Int
  projectId : Int
  language : String
  symbol : String
  kind : String
  filename : String
  startLine : Int
  endLine : Int
  source : Option String
  generation : Int
  deriving DecidableEq, Repr

/-- The identity of a declaration: no two stored ones share it. -/
structure EntityKey where
  projectId : Int
  language : String
  symbol : String
  kind : String
  filename : String
  deriving DecidableEq, Repr

structure CallRow where
  id : Int
  projectId : Int
  callerId : Int
  calleeId : Option Int
  calleeSymbol : String
  line : Int
  comment : Option String
  deriving DecidableEq, Repr

structure ParentRow where
  id : Int
  childId : Int
  parentId : Option Int
  symbol : String
  heritage : String
  deriving DecidableEq, Repr

instance : Numbered Project := ⟨Project.id⟩
instance : Numbered EntityRow := ⟨EntityRow.id⟩
instance : Numbered CallRow := ⟨CallRow.id⟩
instance : Numbered ParentRow := ⟨ParentRow.id⟩

structure Store where
  projects : Table Project := {}
  entities : Table EntityRow := {}
  calls : Table CallRow := {}
  parents : Table ParentRow := {}

def Store.empty : Store := {}

def readLine (value : Int) (column : Nat) : Except Error UInt32 :=
  if 0 ≤ value ∧ value < 4294967296 then .ok (UInt32.ofNat value.toNat)
  else .error (.lineOutOfRange value column)

def readLanguage (text : String) : Except Error Language :=
  match Language.ofSpelling? text with
  | some language => .ok language
  | none => .error (.unknownLanguage text)

def readKind (text : String) : Except Error EntityKind :=
  match EntityKind.ofSpelling? text with
  | some kind => .ok kind
  | none => .error (.unknownKind text)

def readHeritage (text : String) (column : Nat) : Except Error Heritage :=
  match Heritage.ofName? text with
  | some heritage => .ok heritage
  | none => .error (.unreadableHeritage text column)

namespace EntityRow

def key (row : EntityRow) : EntityKey where
  projectId := row.projectId
  language := row.language
  symbol := row.symbol
  kind := row.kind
  filename := row.filename

def ofDraft (projectId generation : Int) (draft : EntityDraft) (id : Int) : EntityRow where
  id := id
  projectId := projectId
  language := draft.language.name
  symbol := draft.symbol
  kind := draft.kind.name
  filename := draft.filename
  startLine := draft.startLine.toNat
  endLine := draft.endLine.toNat
  source := draft.source
  generation := generation

def read (row : EntityRow) : Except Error Entity := do
  let language ← readLanguage row.language
  let kind ← readKind row.kind
  let startLine ← readLine row.startLine 6
  let endLine ← readLine row.endLine 7
  .ok
    { id := row.id
      projectId := row.projectId
      language
      symbol := row.symbol
      kind
      filename := row.filename
      startLine
      endLine
      source := row.source }

end EntityRow

namespace CallRow

def ofDraft (projectId : Int) (draft : CallDraft) (id : Int) : CallRow where
  id := id
  projectId := projectId
  callerId := draft.callerId
  calleeId := draft.calleeId
  calleeSymbol := draft.calleeSymbol
  line := draft.line.toNat
  comment := draft.comment

def read (row : CallRow) : Except Error Call := do
  let line ← readLine row.line 4
  .ok
    { id := row.id
      callerId := row.callerId
      calleeId := row.calleeId
      calleeSymbol := row.calleeSymbol
      line
      comment := row.comment }

end CallRow

namespace ParentRow

/-- The child, symbol and heritage of a row: no two rows share them. -/
def key (row : ParentRow) : Int × String × String :=
  (row.childId, row.symbol, row.heritage)

def read (row : ParentRow) : Except Error ParentEdge := do
  let heritage ← readHeritage row.heritage 4
  .ok
    { id := row.id
      childId := row.childId
      parentId := row.parentId
      symbol := row.symbol
      heritage }

end ParentRow

end DeclGraph
