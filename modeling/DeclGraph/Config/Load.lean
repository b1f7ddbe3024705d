import DeclGraph.Config.Basic
import DeclGraph.Error
import DeclGraph.Text.Blank
import DeclGraph.Yaml.Node

/-! Settings files. -/
namespace DeclGraph

namespace Yaml

def digits? (base : Nat) (digits : List Char) : Option Nat :=
  if digits.isEmpty then none
  else
    digits.foldlM
      (fun n c => (Json.hexValue? c).bind fun d => if d < base then some (n * base + d) else none) 0

def naturalOfText? (bound : Nat) (text : String) : Option Nat :=
  let digits := match text.toList with
    | '+' :: digits => digits
    | digits => digits
  let value? := match digits with
    | '0' :: 'x' :: digits => digits? 16 digits
    | '0' :: 'o' :: digits => digits? 8 digits
    | '0' :: 'b' :: digits => digits? 2 digits
    -- A decimal number has no leading zeros.
    | '0' :: _ :: _ => none
    | digits => digits? 10 digits
  value?.filter (· < bound)

def booleanOfText? (text : String) : Option Bool :=
  if ["true", "True", "TRUE"].contains text then some true
  else if ["false", "False", "FALSE"].contains text then some false
  else none

def isNull (text : String) : Bool :=
  ["~", "null", "Null", "NULL"].contains text

def standardTag (name : String) : String :=
  "tag:yaml.org,2002:" ++ name

namespace Document

/-- The values of the known keys of a section. A repeated key is refused, unknown keys are passed
over. Nothing is a section without keys. -/
def section? (document : Document) (known : List String) (node : Yaml) :
    Option (List (String × Yaml)) :=
  match document.resolve node with
  | .scalar "" .plain _ => some []
  | .mapping entries =>
    entries.foldlM
      (fun found entry =>
        match document.resolve entry.1 with
        | .scalar key _ _ =>
          if !known.contains key then some found
          else if found.any (·.1 == key) then none
          else some (found ++ [(key, entry.2)])
        | _ => none)
      []
  | _ => none

def text? (document : Document) (node : Yaml) : Option String :=
  match document.resolve node with
  | .scalar text _ _ => some text
  | _ => none

/-- A text that may be absent. A tag keeps a plain scalar from being nothing, unless it is the one of
nothing itself. -/
def optionalText? (document : Document) (node : Yaml) : Option (Option String) :=
  match document.resolve node with
  | .scalar text .plain none => some (if text.isEmpty || isNull text then none else some text)
  | .scalar text .plain (some tag) =>
    if tag == standardTag "null" then if isNull text then some none else none
    else some (some text)
  | .scalar text _ _ => some (some text)
  | _ => none

def typedText? (document : Document) (type : String) (node : Yaml) : Option String :=
  match document.resolve node with
  | .scalar text .plain _ => some text
  | .scalar text .literal tag => if tag == some (standardTag type) then some text else none
  | _ => none

def boolean? (document : Document) (node : Yaml) : Option Bool :=
  (document.typedText? "bool" node).bind booleanOfText?

def natural? (document : Document) (bound : Nat) (node : Yaml) : Option Nat :=
  (document.typedText? "int" node).bind (naturalOfText? bound)

def word32? (document : Document) (node : Yaml) : Option UInt32 :=
  (document.natural? UInt32.size node).map UInt32.ofNat

def word64? (document : Document) (node : Yaml) : Option UInt64 :=
  (document.natural? UInt64.size node).map UInt64.ofNat

end Document

def get? {α : Type} (decode : Yaml → Option α) (entries : List (String × Yaml)) (key : String)
    (default : α) : Option α :=
  match entries.lookup key with
  | some node => decode node
  | none => some default

end Yaml

open Yaml in
def Limits.ofYaml? (document : Document) (node : Yaml) : Option Limits := do
  let usual : Limits := {}
  let entries ← document.section?
    ["default_depth", "max_tree_depth", "max_graph_depth", "reverse_graph_max_depth", "max_nodes"]
    node
  let defaultDepth ← get? document.word32? entries "default_depth" usual.defaultDepth
  let maxTreeDepth ← get? document.word32? entries "max_tree_depth" usual.maxTreeDepth
  let maxGraphDepth ← get? document.word32? entries "max_graph_depth" usual.maxGraphDepth
  let reverseGraphMaxDepth ←
    get? document.word32? entries "reverse_graph_max_depth" usual.reverseGraphMaxDepth
  let maxNodes ← get? document.word64? entries "max_nodes" usual.maxNodes
  some { defaultDepth, maxTreeDepth, maxGraphDepth, reverseGraphMaxDepth, maxNodes }

open Yaml in
def Indexing.ofYaml? (document : Document) (node : Yaml) : Option Indexing := do
  let usual : Indexing := {}
  let entries ← document.section? ["max_file_bytes", "exclude_tests", "store_source"] node
  let maxFileBytes ← get? document.word64? entries "max_file_bytes" usual.maxFileBytes
  let excludeTests ← get? document.boolean? entries "exclude_tests" usual.excludeTests
  let storeSource ← get? document.boolean? entries "store_source" usual.storeSource
  some { maxFileBytes, excludeTests, storeSource }

namespace Config

open Yaml in
def ofYaml? (document : Document) : Option Config := do
  let usual : Config := {}
  let entries ← document.section? ["version", "database", "traversal", "indexing"] document.root
  let version ← get? document.text? entries "version" usual.version
  let database ← get? document.optionalText? entries "database" usual.database
  let traversal ← get? (Limits.ofYaml? document) entries "traversal" usual.traversal
  let indexing ← get? (Indexing.ofYaml? document) entries "indexing" usual.indexing
  some { version, database, traversal, indexing }

def ofFile (path : String) (content : Option ByteArray) : Except Error Config :=
  match content with
  | none => .error .missingFile
  | some bytes =>
    match String.fromUTF8? bytes with
    | none => .error .notText
    | some text =>
      match (Yaml.Document.parse? text).bind ofYaml? with
      | none => .error .malformedYaml
      | some config =>
        -- The form is tested before the version.
        if config.version = supportedVersion then .ok config
        else .error (.unsupportedVersion config.version path)

def projectPath (root : String) : String :=
  root ++ "/" ++ projectFile

def userPath (home : String) : String :=
  home ++ "/.config/symgraph/config.yaml"

def firstOf : List (String × Option ByteArray) → Except Error Config
  | [] => .ok {}
  | (_, none) :: rest => firstOf rest
  | (path, some bytes) :: _ => ofFile path (some bytes)

/-- The settings of the first file that exists, with the database that the environment names unless
its name is blank. -/
def load (files : List (String × Option ByteArray)) (database : Option String) :
    Except Error Config := do
  let config ← firstOf files
  match database with
  | some name => .ok (if (Text.trim name).isEmpty then config else { config with database := name })
  | none => .ok config

def databasePath (config : Config) (home : String) : String :=
  config.database.getD (home ++ "/.local/share/symgraph/graph.db")

end Config

end DeclGraph
