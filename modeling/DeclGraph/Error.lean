/-! What can go wrong, by cause, and the text of each cause. -/
namespace DeclGraph

inductive Error where
  | unknownLanguage (text : String)
  | unknownKind (text : String)
  /-- A stored line number is no 32-bit word; the column is its place in the row that was read. -/
  | lineOutOfRange (value : Int) (column : Nat)
  /-- A stored parent has a heritage that is no known one. -/
  | unreadableHeritage (text : String) (column : Nat)
  /-- A parent row has a heritage that does not exist. -/
  | unknownHeritage
  | repeatedParent
  | repeatedEntity
  /-- There is no file where the database should be, and none can be made there. -/
  | unopenedDatabase (address : String)
  | foreignDatabase
  /-- The database is no file at all. -/
  | unreadableDatabase
  /-- There is no room for the files that go with the database. -/
  | unaccompaniedDatabase
  | readOnlyDatabase
  | zeroInAddress (position : Nat)
  | foreignMachine (name : String)
  | unknownOption (kind value : String)
  /-- The address of a database asks for more than it has allowed before. -/
  | forbiddenAccess (value : String)
  | unknownFileSystem (name : String)
  | missingFile
  | notText
  /-- A file stands where a directory is to be made. -/
  | fileInTheWay
  /-- A file stands on the way to where a directory is to be made. -/
  | fileOnTheWay
  | longFileName
  | zeroInPath
  | malformedJson
  | malformedYaml
  | unsupportedVersion (version path : String)
  | unknownProject (id : Int)
  deriving DecidableEq, Repr

namespace Error

inductive Origin where
  | store
  | files
  | json
  | yaml
  | config
  | lookup
  deriving DecidableEq, Repr

def origin : Error → Origin
  | .unknownLanguage _ | .unknownKind _ | .lineOutOfRange _ _ | .unreadableHeritage _ _
  | .unknownHeritage | .repeatedParent | .repeatedEntity | .unopenedDatabase _ | .foreignDatabase
  | .unreadableDatabase | .unaccompaniedDatabase | .readOnlyDatabase | .zeroInAddress _ | .foreignMachine _
  | .unknownOption _ _ | .forbiddenAccess _ | .unknownFileSystem _ => .store
  | .missingFile | .notText | .fileInTheWay | .fileOnTheWay | .longFileName | .zeroInPath => .files
  | .malformedJson => .json
  | .malformedYaml => .yaml
  | .unsupportedVersion _ _ => .config
  | .unknownProject _ => .lookup

def conversionText (column : Nat) (what text : String) : String :=
  "sqlite error: Conversion error from type Text at index: " ++ toString column ++ ", unknown " ++
    what ++ " '" ++ text ++ "'"

/-- The text of an error. Malformed documents have none: only their kind is reported. -/
def message : Error → Option String
  | .unknownLanguage text => some (conversionText 2 "language" text)
  | .unknownKind text => some (conversionText 4 "entity type" text)
  | .lineOutOfRange value column =>
    some ("sqlite error: Integer " ++ toString value ++ " out of range at index " ++
      toString column)
  | .unreadableHeritage text column => some (conversionText column "relationship type" text)
  | .unknownHeritage =>
    some ("sqlite error: CHECK constraint failed: relationship_type IN " ++
      "('extends', 'implements', 'embeds', 'mixin', 'trait')")
  | .repeatedParent =>
    some ("sqlite error: UNIQUE constraint failed: inheritance.child_entity_id, " ++
      "inheritance.parent_symbol, inheritance.relationship_type")
  | .repeatedEntity =>
    some ("sqlite error: UNIQUE constraint failed: entities.project_id, entities.language, " ++
      "entities.symbol, entities.type, entities.filename")
  | .unopenedDatabase address => some ("sqlite error: unable to open database file: " ++ address)
  | .foreignDatabase => some "sqlite error: file is not a database"
  | .unreadableDatabase => some "sqlite error: disk I/O error"
  | .unaccompaniedDatabase => some "sqlite error: unable to open database file"
  | .readOnlyDatabase => some "sqlite error: attempt to write a readonly database"
  | .zeroInAddress position =>
    some ("sqlite error: nul byte found in provided data at position: " ++ toString position)
  | .foreignMachine name => some ("sqlite error: invalid uri authority: " ++ name)
  | .unknownOption kind value => some ("sqlite error: no such " ++ kind ++ " mode: " ++ value)
  | .forbiddenAccess value => some ("sqlite error: access mode not allowed: " ++ value)
  | .unknownFileSystem name => some ("sqlite error: no such vfs: " ++ name)
  | .missingFile => some "io error: No such file or directory (os error 2)"
  | .notText => some "io error: stream did not contain valid UTF-8"
  | .fileInTheWay => some "io error: File exists (os error 17)"
  | .fileOnTheWay => some "io error: Not a directory (os error 20)"
  | .longFileName => some "io error: File name too long (os error 36)"
  | .zeroInPath => some "io error: file name contained an unexpected NUL byte"
  | .malformedJson => none
  | .malformedYaml => none
  | .unsupportedVersion version path =>
    some ("config error: unsupported config version '" ++ version ++ "' in " ++ path)
  | .unknownProject id => some ("not found: project id " ++ toString id)

end Error

end DeclGraph
