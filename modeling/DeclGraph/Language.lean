/-! The source languages the graph covers: their names, the file extensions that select them and
the spellings under which they are known. -/
namespace DeclGraph

inductive Language where
  | typescript
  | tsx
  | javascript
  | jsx
  | python
  | go
  | rust
  | java
  | c
  | cpp
  | csharp
  | php
  | ruby
  | swift
  deriving DecidableEq, Repr

namespace Language

def all : List Language :=
  [.typescript, .tsx, .javascript, .jsx, .python, .go, .rust, .java, .c, .cpp, .csharp, .php, .ruby,
    .swift]

def name : Language → String
  | .typescript => "typescript"
  | .tsx => "tsx"
  | .javascript => "javascript"
  | .jsx => "jsx"
  | .python => "python"
  | .go => "go"
  | .rust => "rust"
  | .java => "java"
  | .c => "c"
  | .cpp => "cpp"
  | .csharp => "csharp"
  | .php => "php"
  | .ruby => "ruby"
  | .swift => "swift"

def extensions : Language → List String
  | .typescript => [".ts", ".mts", ".cts"]
  | .tsx => [".tsx"]
  | .javascript => [".js", ".mjs", ".cjs"]
  | .jsx => [".jsx"]
  | .python => [".py", ".pyi"]
  | .go => [".go"]
  | .rust => [".rs"]
  | .java => [".java"]
  | .c => [".c", ".h"]
  | .cpp => [".cpp", ".cc", ".cxx", ".hpp", ".hxx", ".hh"]
  | .csharp => [".cs"]
  | .php => [".php"]
  | .ruby => [".rb"]
  | .swift => [".swift"]

def spellings : Language → List String
  | .typescript => ["typescript", "ts"]
  | .tsx => ["tsx"]
  | .javascript => ["javascript", "js"]
  | .jsx => ["jsx"]
  | .python => ["python", "py"]
  | .go => ["go", "golang"]
  | .rust => ["rust", "rs"]
  | .java => ["java"]
  | .c => ["c"]
  | .cpp => ["cpp", "c++"]
  | .csharp => ["csharp", "c#", "c_sharp"]
  | .php => ["php"]
  | .ruby => ["ruby", "rb"]
  | .swift => ["swift"]

def ofName? (text : String) : Option Language :=
  all.find? (·.name == text)

def ofExtension? (extension : String) : Option Language :=
  all.find? (·.extensions.contains extension)

/-- The language that answers to a spelling, whatever its case. Lower-casing the English letters is
enough: the only other character with a lower-case form among them is the Kelvin sign, and no
spelling has a `k`. -/
def ofSpelling? (text : String) : Option Language :=
  all.find? (·.spellings.contains (text.map Char.toLower))

end Language

end DeclGraph
