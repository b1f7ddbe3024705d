/-! Places in the text of a YAML document, and the classes of characters that separate its tokens. -/
namespace DeclGraph.Yaml

def isPrintable (c : Char) : Bool :=
  let n := c.toNat
  n == 9 || n == 10 || n == 13 || (0x20 ≤ n && n ≤ 0x7E) || n == 0x85 ||
    (0xA0 ≤ n && n ≤ 0xFFFD) || 0x10000 ≤ n

/-- Writes carriage returns, alone or before a line feed, and next-line characters as line feeds. -/
def normalizeBreaks : List Char → List Char
  | [] => []
  | '\r' :: '\n' :: rest => '\n' :: normalizeBreaks rest
  | c :: rest => (if c == '\r' || c.toNat == 0x85 then '\n' else c) :: normalizeBreaks rest

def isBreak (c : Char) : Bool :=
  c == '\n' || c.toNat == 0x2028 || c.toNat == 0x2029

def isBlank (c : Char) : Bool :=
  c == ' ' || c == '\t'

def isByteOrderMark (c : Char) : Bool :=
  c.toNat == 0xFEFF

def isWordChar (c : Char) : Bool :=
  c.isAlphanum || c == '_' || c == '-'

def isFlowMark (c : Char) : Bool :=
  c == ',' || c == '[' || c == ']' || c == '\x7b' || c == '\x7d'

def atGap : List Char → Bool
  | [] => true
  | c :: _ => isBlank c || isBreak c

structure Place where
  line : Nat := 0
  /-- Characters since the line began. -/
  column : Nat := 0
  /-- Bytes since the line began. -/
  offset : Nat := 0
  deriving DecidableEq, Repr

namespace Place

def after (place : Place) (c : Char) : Place :=
  { place with column := place.column + 1, offset := place.offset + c.utf8Size }

def nextLine (place : Place) : Place :=
  { line := place.line + 1 }

end Place

structure Cursor where
  place : Place := {}
  rest : List Char

def Cursor.forward (cursor : Cursor) (count : Nat) : Cursor :=
  { place := (cursor.rest.take count).foldl Place.after cursor.place, rest := cursor.rest.drop count }

def Cursor.forwardTo (cursor : Cursor) (rest : List Char) : Cursor :=
  cursor.forward (cursor.rest.length - rest.length)

def atMarkerOf (mark : Char) (place : Place) : List Char → Bool
  | a :: b :: c :: rest => place.column == 0 && a == mark && b == mark && c == mark && atGap rest
  | _ => false

def atMarker (place : Place) (rest : List Char) : Bool :=
  atMarkerOf '-' place rest || atMarkerOf '.' place rest

end DeclGraph.Yaml
