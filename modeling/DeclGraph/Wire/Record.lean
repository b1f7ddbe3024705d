import DeclGraph.Json.Basic

/-! Reading records from JSON. A record is an object that holds its fields by name, in any order, none
of them twice and among other keys, or an array that holds them in the order of their declaration. -/
namespace DeclGraph.Wire

structure Record where
  fields : List (String × Json)
  positional : Bool

def unrepeated (names : List String) (fields : List (String × Json)) : Bool :=
  names.all fun name => fields.countP (·.1 == name) ≤ 1

def record? (names : List String) : Json → Option Record
  | .obj fields => if unrepeated names fields then some ⟨fields, false⟩ else none
  -- An array may be shorter than the list of fields, but not longer.
  | .arr items => if items.length ≤ names.length then some ⟨names.zip items, true⟩ else none
  | _ => none

namespace Record

variable {α : Type}

def required (record : Record) (decode : Json → Option α) (name : String) : Option α :=
  (record.fields.lookup name).bind decode

def withDefault (record : Record) (decode : Json → Option α) (name : String) (default : α) :
    Option α :=
  match record.fields.lookup name with
  | some value => decode value
  | none => some default

end Record

variable {α : Type}

def nullable? (decode : Json → Option α) : Json → Option (Option α)
  | .null => some none
  | value => (decode value).map some

/-- A field that may be null, or be left out of an object. An array has a place for it. -/
def Record.optional (record : Record) (decode : Json → Option α) (name : String) :
    Option (Option α) :=
  match record.fields.lookup name with
  | some value => nullable? decode value
  | none => if record.positional then none else some none

def intIn? (low high : Int) : Json → Option Int
  | .int n => if low ≤ n ∧ n ≤ high then some n else none
  | _ => none

def int? : Json → Option Int :=
  intIn? (-9223372036854775808) 9223372036854775807

def word32? (value : Json) : Option UInt32 :=
  (intIn? 0 4294967295 value).map fun n => UInt32.ofNat n.toNat

def word64? (value : Json) : Option UInt64 :=
  (intIn? 0 18446744073709551615 value).map fun n => UInt64.ofNat n.toNat

def string? : Json → Option String
  | .str text => some text
  | _ => none

def bool? : Json → Option Bool
  | .bool value => some value
  | _ => none

def list? (decode : Json → Option α) : Json → Option (List α)
  | .arr items => items.mapM decode
  | _ => none

/-- One of a set of named constants: its name, or an object that holds nothing but null under the
name. -/
def constant? (ofName? : String → Option α) : Json → Option α
  | .str name => ofName? name
  | .obj [(name, .null)] => ofName? name
  | _ => none

end DeclGraph.Wire
