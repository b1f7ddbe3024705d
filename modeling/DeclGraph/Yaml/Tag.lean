import DeclGraph.Json.Reader
import DeclGraph.Yaml.Cursor

/-! Names of anchors, tags, and the directives that precede a document. A tag is a handle and the rest
of it; directives say what the handles stand for. Octets that a tag gives by number are kept as the
characters with these numbers. -/
namespace DeclGraph.Yaml

def readName? (cursor : Cursor) : Option (String × Cursor) :=
  let name := cursor.rest.takeWhile isWordChar
  let next := cursor.forward name.length
  let closed := atGap next.rest || next.rest.head?.any fun c =>
    c == '?' || c == ':' || c == ',' || c == ']' || c == '\x7d' || c == '%' || c == '@' ||
      c.toNat == 0x60
  if name.isEmpty || !closed then none else some (String.ofList name, next)

def isTagChar (bracketed : Bool) (c : Char) : Bool :=
  isWordChar c || c == ';' || c == '/' || c == '?' || c == ':' || c == '@' || c == '&' ||
    c == '=' || c == '+' || c == '$' || c == '.' || c == '!' || c == '~' || c == '*' ||
    c == '\'' || c == '(' || c == ')' || (bracketed && (c == ',' || c == '[' || c == ']'))

def followers? (octet : Nat) : Option Nat :=
  if octet < 0x80 then some 0
  else if 0xC0 ≤ octet && octet < 0xE0 then some 1
  else if 0xE0 ≤ octet && octet < 0xF0 then some 2
  else if 0xF0 ≤ octet && octet < 0xF8 then some 3
  else none

/-- Reads the characters of a tag; `left` octets of a character are still to come, and `done` holds
what has been read, last first. -/
def readTagChars (bracketed : Bool) : Nat → List Char → List Char → Option (String × List Char)
  | left, done, '%' :: a :: b :: rest => do
    let octet := (← Json.hexValue? a) * 16 + (← Json.hexValue? b)
    let left ← match left with
      | 0 => followers? octet
      | left + 1 => if 0x80 ≤ octet && octet < 0xC0 then some left else none
    readTagChars bracketed left (Char.ofNat octet :: done) rest
  | left, done, c :: rest =>
    if c == '%' || left != 0 then none
    else if isTagChar bracketed c then readTagChars bracketed 0 (c :: done) rest
    else some (String.ofList done.reverse, c :: rest)
  | left, done, [] => if left != 0 then none else some (String.ofList done.reverse, [])

def readHandle? (cursor : Cursor) : Option (String × Cursor) :=
  match cursor.rest with
  | '!' :: rest =>
    let word := rest.takeWhile isWordChar
    let closing := if (rest.drop word.length).head? == some '!' then ['!'] else []
    let handle := '!' :: word ++ closing
    some (String.ofList handle, cursor.forward handle.length)
  | _ => none

def isClosedHandle (handle : String) : Bool :=
  2 ≤ handle.length && handle.endsWith "!"

structure Tag where
  handle : String
  suffix : String
  deriving DecidableEq

def readTag? (flow : Bool) (cursor : Cursor) : Option (Tag × Cursor) := do
  let (tag, next) ← match cursor.rest with
    | '!' :: '<' :: _ => do
      let inner := cursor.forward 2
      let (suffix, rest) ← readTagChars true 0 [] inner.rest
      if suffix.isEmpty then none
      else
        match rest with
        | '>' :: _ => some (Tag.mk "" suffix, (inner.forwardTo rest).forward 1)
        | _ => none
    | _ => do
      let (handle, behind) ← readHandle? cursor
      let (more, rest) ← readTagChars false 0 [] behind.rest
      if isClosedHandle handle then
        if more.isEmpty then none else some (Tag.mk handle more, behind.forwardTo rest)
      else
        let suffix := String.ofList (handle.toList.drop 1) ++ more
        some (if suffix.isEmpty then Tag.mk "" "!" else Tag.mk "!" suffix, behind.forwardTo rest)
  if atGap next.rest || (flow && next.rest.head? == some ',') then some (tag, next) else none

inductive Directive where
  | version (major minor : Nat)
  | handle (name meaning : String)
  deriving DecidableEq

def readVersionNumber? (cursor : Cursor) : Option (Nat × Cursor) :=
  let digits := cursor.rest.takeWhile Char.isDigit
  if digits.isEmpty || 9 < digits.length then none
  else
    some (digits.foldl (fun n c => n * 10 + (c.toNat - '0'.toNat)) 0, cursor.forward digits.length)

def skipBlanks (cursor : Cursor) : Cursor :=
  cursor.forward (cursor.rest.takeWhile isBlank).length

def readDirective? (cursor : Cursor) : Option (Directive × Cursor) := do
  let name := cursor.rest.takeWhile isWordChar
  let next := cursor.forward name.length
  if !atGap next.rest then none
  else if name == "YAML".toList then do
    let (major, next) ← readVersionNumber? (skipBlanks next)
    match next.rest with
    | '.' :: _ => do
      let (minor, next) ← readVersionNumber? (next.forward 1)
      some (.version major minor, next)
    | _ => none
  else if name == "TAG".toList then do
    let (handle, next) ← readHandle? (skipBlanks next)
    if !(isClosedHandle handle || handle == "!") || !next.rest.head?.any isBlank then none
    else do
      let next := skipBlanks next
      let (meaning, rest) ← readTagChars true 0 [] next.rest
      if meaning.isEmpty || !atGap rest then none
      else some (.handle handle meaning, next.forwardTo rest)
  else none

end DeclGraph.Yaml
