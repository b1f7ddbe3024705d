/-! JSON values. Integers are kept apart from all other numbers, because a field that holds an
integer accepts no other form of number. -/
namespace DeclGraph

inductive Json where
  | null
  | bool (value : Bool)
  | int (value : Int)
  /-- A number that is not written as an integer, as it was written. -/
  | decimal (text : String)
  | str (value : String)
  | arr (items : List Json)
  | obj (fields : List (String × Json))

namespace Json

def field? : Json → String → Option Json
  | .obj fields, key => fields.lookup key
  | _, _ => none

def ofFields (fields : List (String × Option Json)) : Json :=
  .obj (fields.filterMap fun entry => entry.2.map fun value => (entry.1, value))

def ofOption {α : Type} (encode : α → Json) : Option α → Json
  | none => .null
  | some value => encode value

def ofList {α : Type} (encode : α → Json) (values : List α) : Json :=
  .arr (values.map encode)

def ofNat (n : Nat) : Json :=
  .int n

def ofWord (n : UInt32) : Json :=
  .int n.toNat

end Json

end DeclGraph
