import DeclGraph.Error
import DeclGraph.Json.Reader

/-! Addresses of databases. An address is the path of a file, or a `file:` address with options behind a
question mark. Some addresses mean a database that is kept in memory only. -/
namespace DeclGraph

inductive Access where
  | readOnly
  | existing
  | create
  | memory
  deriving DecidableEq, Repr

structure Address where
  file : Option String
  access : Access := .create
  /-- Whether the file is taken as one that nobody writes to. -/
  frozen : Bool := false
  deriving DecidableEq, Repr

namespace Access

def ofName? (name : String) : Option Access :=
  [("ro", .readOnly), ("rw", .existing), ("rwc", .create), ("memory", .memory)].lookup name

def demand : Access → Nat
  | .memory => 0
  | .readOnly => 1
  | .existing => 2
  | .create => 3

def allowance : Access → Nat
  | .memory => 3
  | access => access.demand

end Access

namespace Address

/-- The bytes of a piece of an address, in which any byte can be given by its number. A zero byte ends
it. -/
def decode : List Char → List UInt8
  | [] => []
  | c :: rest =>
    let plain := (String.singleton c).toUTF8.toList ++ decode rest
    if c == '%' then
      match rest with
      | a :: b :: more =>
        match Json.hexValue? a, Json.hexValue? b with
        | some high, some low =>
          if high = 0 ∧ low = 0 then [] else UInt8.ofNat (high * 16 + low) :: decode more
        | _, _ => plain
      | _ => plain
    else plain

def piece (chars : List Char) : String :=
  let bytes := decode chars
  -- Bytes that are no text stand for the characters with their numbers.
  (String.fromUTF8? ⟨bytes.toArray⟩).getD (String.ofList (bytes.map fun b => Char.ofNat b.toNat))

def cut (mark : Char) (chars : List Char) : List Char × List Char :=
  (chars.takeWhile (· != mark), (chars.dropWhile (· != mark)).drop 1)

def divide (mark : Char) : List Char → List Char → List (List Char)
  | part, [] => [part.reverse]
  | part, c :: rest =>
    if c == mark then part.reverse :: divide mark [] rest else divide mark (c :: part) rest

def options (query : List Char) : List (String × String) :=
  ((divide '&' [] query).map fun option =>
    let (name, value) := cut '=' option
    (piece name, piece value)).filter (!·.1.isEmpty)

def isYes (value : String) : Bool :=
  match value.toList.takeWhile Char.isDigit with
  | [] => ["on", "yes", "true"].contains (value.map Char.toLower)
  | digits => digits.any (· != '0')

def fileSystems : List String :=
  ["unix", "unix-none", "unix-dotfile", "unix-excl", "memdb"]

def narrow (access : Access) (option : String × String) : Except Error Access :=
  let (name, value) := option
  if name == "mode" then
    match Access.ofName? value with
    | none => .error (.unknownOption "access" value)
    | some asked =>
      if access.allowance < asked.demand then .error (.forbiddenAccess value) else .ok asked
  else if name == "cache" && value != "shared" && value != "private" then
    .error (.unknownOption "cache" value)
  else .ok access

def withoutMachine (chars : List Char) : Except Error (List Char) :=
  match chars with
  | '/' :: '/' :: rest =>
    let machine := rest.takeWhile (· != '/')
    -- Only the own machine may be named.
    if machine.isEmpty || machine == "localhost".toList then .ok (rest.dropWhile (· != '/'))
    else .error (.foreignMachine (String.ofList machine))
  | chars => .ok chars

/-- The address of a file. No name at all means a database in memory, and so does one name. -/
def ofFile (name : String) : Address :=
  { file := if name.isEmpty || name == ":memory:" then none else some name }

def ofOptions (chars : List Char) : Except Error Address := do
  let (name, query) := cut '?' (cut '#' (← withoutMachine chars)).1
  let options := options query
  let access ← options.foldlM narrow .create
  let system := ((options.filter (·.1 == "vfs")).getLast?.map (·.2)).getD "unix"
  if !fileSystems.contains system then .error (.unknownFileSystem system)
  else
    let address := { ofFile (piece name) with access, frozen := (options.lookup "immutable").any isYes }
    .ok (if access == .memory || system == "memdb" then { address with file := none } else address)

def ofText (text : String) : Except Error Address :=
  match text.toList with
  | 'f' :: 'i' :: 'l' :: 'e' :: ':' :: rest => ofOptions rest
  | _ => .ok (ofFile text)

def isReadOnly (address : Address) : Bool :=
  address.access == .readOnly || (address.frozen && address.file.isSome)

end Address

end DeclGraph
