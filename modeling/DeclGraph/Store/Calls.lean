import DeclGraph.Store.Basic

/-! Calls of a store: the edges between declarations, seen from either end. -/
namespace DeclGraph

structure Neighbor where
  entityId : Option Int
  symbol : String
  line : UInt32
  deriving DecidableEq, Repr

namespace Store

def replaceCalls (store : Store) (projectId : Int) (drafts : List CallDraft) : Nat × Store :=
  let kept := store.calls.filter (·.projectId != projectId)
  (drafts.length,
    { store with
      calls := drafts.foldl (fun calls draft => calls.append (CallRow.ofDraft projectId draft))
        kept })

def byLineAndCallee (a b : CallRow) : Bool :=
  a.line < b.line || (a.line == b.line && a.calleeSymbol ≤ b.calleeSymbol)

def calleesOf (store : Store) (id : Int) : Except Error (List Neighbor) :=
  ((store.calls.rows.filter (·.callerId == id)).mergeSort byLineAndCallee).mapM fun row => do
    let line ← readLine row.line 2
    .ok { entityId := row.calleeId, symbol := row.calleeSymbol, line }

def byCaller (a b : String × CallRow) : Bool :=
  a.1 < b.1 ||
    (a.1 == b.1 &&
      (a.2.callerId < b.2.callerId ||
        (a.2.callerId == b.2.callerId && a.2.line ≤ b.2.line)))

/-- What calls a declaration. Callers that are not stored are passed over. -/
def callersOf (store : Store) (id : Int) : Except Error (List Neighbor) :=
  let calls := store.calls.rows.filterMap fun row =>
    if row.calleeId == some id then
      (store.entities.find? row.callerId).map fun caller => (caller.symbol, row)
    else none
  (calls.mergeSort byCaller).mapM fun (symbol, row) => do
    let line ← readLine row.line 2
    .ok { entityId := some row.callerId, symbol, line }

def callSites (store : Store) (callerId calleeId : Int) : Except Error (List Call) :=
  let calls := store.calls.rows.filter fun row =>
    row.callerId == callerId && row.calleeId == some calleeId
  (calls.mergeSort fun a b => a.line ≤ b.line).mapM CallRow.read

def insertCall (store : Store) (row : CallRow) : Int × Store :=
  (store.calls.next, { store with calls := store.calls.append fun id => { row with id } })

end Store

end DeclGraph
