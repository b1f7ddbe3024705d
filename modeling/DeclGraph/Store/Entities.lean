import DeclGraph.Store.Basic

/-! Declarations of a store: writing them, dropping those a refresh did not meet again, and reading
them. -/
namespace DeclGraph.Store

/-- Stores a declaration. One of the same identity is overwritten and keeps its number, but the
attempt takes a number all the same. -/
def putEntity (store : Store) (projectId generation : Int) (draft : EntityDraft) : Int × Store :=
  let row := EntityRow.ofDraft projectId generation draft
  match store.entities.rows.find? (·.key == (row 0).key) with
  | some old =>
    (old.id,
      { store with
        entities :=
          (store.entities.modify (fun other => if other.id = old.id then row old.id else other)
            (by intro other; split <;> simp_all [Numbered.id, row, EntityRow.ofDraft])).skip })
  | none => (store.entities.next, { store with entities := store.entities.append row })

def putEntities (store : Store) (projectId generation : Int) :
    List EntityDraft → List Int × Store
  | [] => ([], store)
  | draft :: rest =>
    let (id, store) := store.putEntity projectId generation draft
    let (ids, store) := store.putEntities projectId generation rest
    (id :: ids, store)

def isStale (projectId generation : Int) (row : EntityRow) : Bool :=
  row.projectId == projectId && row.generation < generation

def staleIds (store : Store) (projectId generation : Int) : List Int :=
  (store.entities.rows.filter (isStale projectId generation)).map (·.id)

def refersToStale (store : Store) (projectId generation source : Int) (target : Option Int) : Bool :=
  (store.staleIds projectId generation).contains source ||
    target.any ((store.staleIds projectId generation).contains ·)

def purgeCalls (store : Store) (projectId generation : Int) : Store :=
  { store with
    calls := store.calls.filter fun row =>
      !store.refersToStale projectId generation row.callerId row.calleeId }

def purgeParents (store : Store) (projectId generation : Int) : Store :=
  { store with
    parents := store.parents.filter fun row =>
      !store.refersToStale projectId generation row.childId row.parentId }

def purgeEntities (store : Store) (projectId generation : Int) : Nat × Store :=
  ((store.entities.rows.filter (isStale projectId generation)).length,
    { store with entities := store.entities.filter (!isStale projectId generation ·) })

/-- Deletes the stale declarations of a project. What refers to one of them goes first, while it can
still be told by the declarations; only these are counted. -/
def purgeStale (store : Store) (projectId generation : Int) : Nat × Store :=
  ((store.purgeCalls projectId generation).purgeParents projectId generation).purgeEntities projectId
    generation

def entity? (store : Store) (id : Int) : Except Error (Option Entity) :=
  match store.entities.find? id with
  | none => .ok none
  | some row => row.read.map some

/-- The declarations of a project with a symbol, of the given kinds if any are given. Every one of
that symbol has to be readable. -/
def entitiesNamed (store : Store) (projectId : Int) (symbol : String) (kinds : List EntityKind) :
    Except Error (List Entity) := do
  let named := store.entities.rows.filter fun row =>
    row.projectId == projectId && row.symbol == symbol
  let entities ← named.mapM EntityRow.read
  .ok (if kinds.isEmpty then entities else entities.filter fun entity => kinds.contains entity.kind)

def entitiesOf (store : Store) (projectId : Int) : Except Error (List Entity) :=
  (store.entities.rows.filter (·.projectId == projectId)).mapM EntityRow.read

def owns (store : Store) (projectId id : Int) : Bool :=
  (store.entities.find? id).any (·.projectId == projectId)

def insertEntity (store : Store) (row : EntityRow) : Except Error (Int × Store) :=
  if store.entities.rows.any (·.key == row.key) then .error .repeatedEntity
  else
    .ok (store.entities.next,
      { store with entities := store.entities.append fun id => { row with id } })

end DeclGraph.Store
