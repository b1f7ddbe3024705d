import DeclGraph.Store.Entities
import DeclGraph.Text.Blank

/-! Parents of a store: what extraction found, and the pass that links the names to declarations. -/
namespace DeclGraph

structure InsertReport where
  inserted : Nat := 0
  dropped : Nat := 0
  duplicates : Nat := 0
  deriving DecidableEq, Repr

structure LinkReport where
  resolved : Nat := 0
  /-- Parents without a declaration after the pass. -/
  unresolved : Nat := 0
  deriving DecidableEq, Repr

namespace ParentDraft

def complete? (draft : ParentDraft) : Option (Int × String × String) := do
  let childId ← draft.childId
  let symbol := Text.trim (← draft.symbol)
  let heritage ← draft.heritage
  if symbol.isEmpty then none else some (childId, symbol, heritage.name)

def isComplete (draft : ParentDraft) : Bool :=
  draft.complete?.isSome

end ParentDraft

namespace Store

/-- Stores one draft, with no declaration linked to it. A duplicate takes a number too. -/
def addParent (store : Store) (report : InsertReport) (draft : ParentDraft) :
    InsertReport × Store :=
  match draft.complete? with
  | none => ({ report with dropped := report.dropped + 1 }, store)
  | some (childId, symbol, heritage) =>
    if store.parents.rows.any (·.key == (childId, symbol, heritage)) then
      ({ report with duplicates := report.duplicates + 1 },
        { store with parents := store.parents.skip })
    else
      ({ report with inserted := report.inserted + 1 },
        { store with
          parents := store.parents.append fun id =>
            { id, childId, parentId := none, symbol, heritage } })

def addParents (store : Store) (drafts : List ParentDraft) : InsertReport × Store :=
  drafts.foldl (fun state draft => state.2.addParent state.1 draft) ({}, store)

def replaceParents (store : Store) (projectId : Int) (drafts : List ParentDraft) :
    InsertReport × Store :=
  { store with parents := store.parents.filter (!store.owns projectId ·.childId) }.addParents drafts

def parentRowsOf (store : Store) (projectId : Int) : List ParentRow :=
  store.parents.rows.filter (store.owns projectId ·.childId)

def parentEdgesOf (store : Store) (projectId : Int) : Except Error (List ParentEdge) :=
  (store.parentRowsOf projectId).mapM ParentRow.read

def isParentKind (kind : String) : Bool :=
  kind == "class" || kind == "struct" || kind == "interface" || kind == "trait"

/-- A parent can stand for any type of that name in the project, other than the child. -/
def fits (projectId : Int) (row : ParentRow) (entity : EntityRow) : Bool :=
  entity.projectId == projectId && entity.symbol == row.symbol && isParentKind entity.kind &&
    entity.id != row.childId

def candidate? (store : Store) (projectId : Int) (row : ParentRow) : Option Int :=
  ((store.entities.rows.filter (fits projectId row)).map (·.id)).min?

def isOpen (store : Store) (projectId : Int) (row : ParentRow) : Bool :=
  row.parentId.isNone && store.owns projectId row.childId

def isLinkable (store : Store) (projectId : Int) (row : ParentRow) : Bool :=
  store.isOpen projectId row && store.entities.rows.any (fits projectId row)

def link (store : Store) (projectId : Int) (row : ParentRow) : ParentRow :=
  if store.isLinkable projectId row then { row with parentId := store.candidate? projectId row }
  else row

theorem isLinkable_eq (store : Store) (projectId : Int) (row : ParentRow) :
    store.isLinkable projectId row =
      (store.isOpen projectId row && (store.candidate? projectId row).isSome) := by
  have some : store.entities.rows.any (fits projectId row) = (store.candidate? projectId row).isSome := by
    rw [Bool.eq_iff_iff, List.any_eq_true, Option.isSome_iff_ne_none, candidate?, Ne,
      List.min?_eq_none_iff, List.map_eq_nil_iff, List.filter_eq_nil_iff]
    simp only [Classical.not_forall, Classical.not_not, exists_prop]
  rw [isLinkable, some]

/-- To link an open parent to nothing is to leave it as it is. -/
theorem link_eq (store : Store) (projectId : Int) (row : ParentRow) :
    store.link projectId row =
      if store.isOpen projectId row then { row with parentId := store.candidate? projectId row }
      else row := by
  rw [link, isLinkable_eq]
  cases opened : store.isOpen projectId row with
  | false => rfl
  | true =>
    cases found : store.candidate? projectId row with
    | some parent => rfl
    | none =>
      have unlinked : row.parentId = none :=
        Option.isNone_iff_eq_none.1 (Bool.and_eq_true_iff.1 opened).1
      have same : { row with parentId := none } = row := by rw [← unlinked]
      exact same.symm

def linkParents (store : Store) (projectId : Int) : LinkReport × Store :=
  let after : Store :=
    { store with
      parents := store.parents.modify (store.link projectId)
        (by intro row; simp only [link]; split <;> rfl) }
  ({ resolved := (store.parents.rows.filter (store.isLinkable projectId)).length
     unresolved := (after.parents.rows.filter (after.isOpen projectId)).length },
    after)

/-- Inserts a row as it stands. Its heritage is tested before its identity. -/
def insertParent (store : Store) (childId : Int) (parentId : Option Int) (symbol heritage : String) :
    Except Error (Int × Store) :=
  if (Heritage.ofName? heritage).isNone then .error .unknownHeritage
  else if store.parents.rows.any (·.key == (childId, symbol, heritage)) then .error .repeatedParent
  else
    .ok (store.parents.next,
      { store with
        parents := store.parents.append fun id => { id, childId, parentId, symbol, heritage } })

end Store

end DeclGraph
