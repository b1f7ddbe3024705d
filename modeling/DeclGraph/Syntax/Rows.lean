import DeclGraph.Syntax.Node

/-! Trees written as tables. Each row names the row of its parent, which stands before it; the rows
of one parent are its children in order. -/
namespace DeclGraph.Syntax

structure Row where
  parent : Option Nat
  kind : String
  text : String
  startLine : UInt32 := 1
  endLine : UInt32 := 1
  fields : List (String × Nat) := []

structure LabelledRow where
  parent : Option Nat
  kind : String
  text : String
  field : Option String

structure SpanRow where
  parent : Option Nat
  kind : String
  start : Nat
  stop : Nat
  startRow : Nat
  endRow : Nat
  fields : List (String × Nat)

def slice (source : ByteArray) (start stop : Nat) : String :=
  (String.fromUTF8? (source.extract start stop)).getD ""

def SpanRow.toRow (source : ByteArray) (row : SpanRow) : Row where
  parent := row.parent
  kind := row.kind
  text := slice source row.start row.stop
  startLine := UInt32.ofNat (row.startRow + 1)
  endLine := UInt32.ofNat (row.endRow + 1)
  fields := row.fields

def LabelledRow.toRows (rows : List LabelledRow) : List Row :=
  rows.zipIdx.map fun (row, index) =>
    { parent := row.parent
      kind := row.kind
      text := row.text
      fields := rows.zipIdx.filterMap fun (other, position) =>
        match other.field with
        | some name => if other.parent == some index then some (name, position) else none
        | none => none }

def positions (parents : Array (Option Nat)) : Array Nat :=
  (parents.foldl
    (fun (state : Array Nat × Array Nat) parent =>
      match parent with
      | none => (state.1.push 0, state.2)
      | some p => (state.1.push (state.2.getD p 0), state.2.modify p (· + 1)))
    (#[], Array.replicate parents.size 0)).1

/-- The child positions from one row down to another: the lower row is climbed from, parent by
parent, and no row has more ancestors than there are rows. -/
def pathBetween (parents : Array (Option Nat)) (places : Array Nat) (upper : Nat) :
    Nat → Nat → List Nat → Option (List Nat)
  | 0, _, _ => none
  | fuel + 1, lower, path =>
    if lower = upper then some path
    else
      match parents[lower]? with
      | some (some parent) =>
        pathBetween parents places upper fuel parent (places.getD lower 0 :: path)
      | _ => none

def routeBetween (parents : Array (Option Nat)) (places : Array Nat) (upper lower : Nat) :
    Option Route :=
  match pathBetween parents places upper (parents.size + 1) lower [] with
  | some (child :: below) => some { child, below }
  | _ => none

/-- The tree of a table. Rows are taken from the last to the first, so that the children of a row
are complete when the row is reached. -/
def Node.ofRows? (rows : List Row) : Option Node :=
  let parents := (rows.map (·.parent)).toArray
  let places := positions parents
  let build (entry : Row × Nat) (state : Array (List Node) × Option Node) :
      Array (List Node) × Option Node :=
    let (row, index) := entry
    let node : Node :=
      { row := index
        kind := row.kind
        text := row.text
        startLine := row.startLine
        endLine := row.endLine
        fields := row.fields.filterMap fun (name, target) =>
          (routeBetween parents places index target).map fun route => (name, route)
        children := state.1.getD index [] }
    match row.parent with
    | none => (state.1, some node)
    | some parent => (state.1.modify parent (node :: ·), state.2)
  (rows.zipIdx.foldr build (Array.replicate rows.length [], none)).2

end DeclGraph.Syntax
