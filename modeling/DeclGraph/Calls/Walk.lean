import DeclGraph.Limits
import DeclGraph.Store.Calls
import DeclGraph.Store.Entities

/-! What the traversals of the call graph share: the direction they follow, the ends of calls
collected per declaration, the trail of ancestors and the budget of nodes. -/
namespace DeclGraph

inductive Direction where
  | callers
  | callees
  deriving DecidableEq, Repr

inductive Outcome (α : Type) where
  | found (value : α)
  | rootNotFound (symbol : String)
  deriving DecidableEq, Repr

namespace Outcome

variable {α : Type}

def found? : Outcome α → Option α
  | .found value => some value
  | .rootNotFound _ => none

end Outcome

structure Indexed (κ α : Type) where
  entries : List α
  places : List (κ × Nat)

namespace Indexed

variable {κ α : Type} [DecidableEq κ]

def place? (list : Indexed κ α) (key : κ) : Option Nat :=
  list.places.lookup key

def push (list : Indexed κ α) (key : κ) (entry : α) : Indexed κ α where
  entries := list.entries ++ [entry]
  places := (key, list.entries.length) :: list.places

def modify (list : Indexed κ α) (place : Nat) (change : α → α) : Indexed κ α :=
  { list with entries := list.entries.modify place change }

def upsert (list : Indexed κ α) (key : κ) (change : α → α) (fresh : α) : Indexed κ α :=
  match list.place? key with
  | some place => list.modify place change
  | none => list.push key fresh

end Indexed

inductive Endpoint where
  | known (id : Int)
  | unknown (symbol : String)
  deriving DecidableEq, Repr

def endpoint (entityId : Option Int) (symbol : String) : Endpoint :=
  match entityId with
  | some id => .known id
  | none => .unknown symbol

structure NeighborGroup where
  entityId : Option Int
  /-- The symbol of the first call. -/
  symbol : String
  lines : List UInt32
  deriving DecidableEq, Repr

namespace NeighborGroup

def join (groups : Indexed Endpoint NeighborGroup) (neighbor : Neighbor) :
    Indexed Endpoint NeighborGroup :=
  groups.upsert (endpoint neighbor.entityId neighbor.symbol)
    (fun group => { group with lines := group.lines ++ [neighbor.line] })
    ⟨neighbor.entityId, neighbor.symbol, [neighbor.line]⟩

/-- The groups of a list of calls, in the order in which their endpoints occur first. -/
def collect (neighbors : List Neighbor) : List NeighborGroup :=
  (neighbors.foldl join ⟨[], []⟩).entries

end NeighborGroup

abbrev Trail := List Int

namespace Trail

def enter (trail : Trail) (id : Int) : Bool × Trail :=
  if trail.contains id then (false, trail) else (true, id :: trail)

def leave (trail : Trail) : Trail :=
  trail.tail

end Trail

structure Budget where
  limit : Nat
  used : Nat := 0
  deriving DecidableEq, Repr

namespace Budget

/-- A budget inside the hard bound; a limit of zero asks for all of it. -/
def ofLimit (limit : Nat) : Budget where
  limit := if limit = 0 then hardMaxNodes else min limit hardMaxNodes

def take? (budget : Budget) : Option Budget :=
  if budget.used < budget.limit then some { budget with used := budget.used + 1 } else none

def isExhausted (budget : Budget) : Bool :=
  budget.limit ≤ budget.used

end Budget

namespace Store

def neighbors (store : Store) (direction : Direction) (id : Int) : Except Error (List Neighbor) :=
  match direction with
  | .callers => store.callersOf id
  | .callees => store.calleesOf id

def groups (store : Store) (direction : Direction) (id : Int) :
    Except Error (List NeighborGroup) := do
  .ok (NeighborGroup.collect (← store.neighbors direction id))

/-- The declaration a query by symbol starts from: the first function of that symbol, else the first
declaration. -/
def root? (store : Store) (projectId : Int) (symbol : String) : Except Error (Option Entity) := do
  let entities ← store.entitiesNamed projectId symbol []
  .ok ((entities.find? (·.kind = .function)).or entities.head?)

end Store

end DeclGraph
