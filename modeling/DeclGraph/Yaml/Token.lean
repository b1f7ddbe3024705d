import DeclGraph.Yaml.Scalar
import DeclGraph.Yaml.Basic
import DeclGraph.Yaml.Tag

/-! The tokens of a YAML document. Block collections have no marks of their own: the columns in which
their entries begin tell where they open and close. A key shows itself only by the colon behind it, so
the place where a key may begin is remembered until then: the key has to end on its line, and within
1024 bytes. -/
namespace DeclGraph.Yaml

inductive Token where
  | directive (value : Directive)
  | documentStart
  | documentEnd
  | sequenceStart
  | mappingStart
  | blockEnd
  | bracketOpen
  | bracketClose
  | braceOpen
  | braceClose
  | comma
  | dash
  | key
  | value
  | reference (name : String)
  | anchor (name : String)
  | tag (value : Tag)
  | scalar (text : String) (style : Style)

namespace Token

structure KeyStart where
  /-- How many tokens stand before it. -/
  token : Nat
  place : Place
  /-- Whether nothing but a key may stand there. -/
  required : Bool

def keyLimit : Nat := 1024

def KeyStart.isPast (start : KeyStart) (place : Place) : Bool :=
  start.place.line < place.line || start.place.offset + keyLimit < place.offset

structure Scan where
  cursor : Cursor
  tokens : Array Token := #[]
  /-- The columns of the open block collections, innermost first. -/
  columns : List Nat := []
  /-- Where a key may have begun, on the innermost level of brackets. -/
  key : Option KeyStart := none
  /-- The same for the outer levels, innermost first. -/
  outer : List (Option KeyStart) := []
  /-- Whether a key may begin at the next token. -/
  keyAllowed : Bool := true

namespace Scan

def inFlow (scan : Scan) : Bool :=
  !scan.outer.isEmpty

def margin (scan : Scan) : Nat :=
  match scan.columns with
  | [] => 0
  | column :: _ => column + 1

def push (scan : Scan) (token : Token) (count : Nat) : Scan :=
  { scan with tokens := scan.tokens.push token, cursor := scan.cursor.forward count }

def dropKey? (scan : Scan) : Option Scan :=
  if scan.key.any KeyStart.required then none else some { scan with key := none }

def saveKey? (scan : Scan) : Option Scan :=
  if !scan.keyAllowed then some scan
  else do
    let scan ← scan.dropKey?
    let place := scan.cursor.place
    let required := !scan.inFlow && scan.margin == place.column + 1
    some { scan with key := some ⟨scan.tokens.size, place, required⟩ }

def expireKeys? (scan : Scan) : Option Scan :=
  let isPast : Option KeyStart → Bool := fun key? => key?.any (·.isPast scan.cursor.place)
  let expire : Option KeyStart → Option KeyStart := fun key? => if isPast key? then none else key?
  if (scan.key :: scan.outer).any fun key? => isPast key? && key?.any KeyStart.required then none
  else some { scan with key := expire scan.key, outer := scan.outer.map expire }

/-- Opens a block collection in a column, unless it is open; its token comes before the others from
`number` on. -/
def openBlock (scan : Scan) (column number : Nat) (token : Token) : Scan :=
  if scan.inFlow || column < scan.margin then scan
  else
    { scan with
      columns := column :: scan.columns, tokens := scan.tokens.insertIdxIfInBounds number token }

def closeBlocks (scan : Scan) (ends : Nat → Bool) : Scan :=
  if scan.inFlow then scan
  else
    let closed := scan.columns.takeWhile ends
    { scan with
      columns := scan.columns.drop closed.length
      tokens := scan.tokens ++ Array.replicate closed.length .blockEnd }

/-- Skips blanks, comments and line breaks. A tab may not stand where a key may begin outside brackets,
and in a block a new line lets a key begin. A byte order mark may begin a line. -/
def skipGap (flow : Bool) : Bool → Bool → Place → List Char → Bool × Cursor
  | allowed, _, place, [] => (allowed, ⟨place, []⟩)
  | allowed, comment, place, c :: rest =>
    if isBreak c then skipGap flow (allowed || !flow) false place.nextLine rest
    else if comment then skipGap flow allowed true (place.after c) rest
    else if (place.column == 0 && isByteOrderMark c) || c == ' ' ||
        (c == '\t' && (flow || !allowed)) then
      skipGap flow allowed false (place.after c) rest
    else if c == '#' then skipGap flow allowed true (place.after c) rest
    else (allowed, ⟨place, c :: rest⟩)

def standAlone? (scan : Scan) : Option Scan := do
  let scan ← (scan.closeBlocks fun _ => true).dropKey?
  some { scan with keyAllowed := false }

def marker? (scan : Scan) (token : Token) : Option Scan := do
  some ((← scan.standAlone?).push token 3)

def directive? (scan : Scan) : Option Scan := do
  let scan ← scan.standAlone?
  let (said, next) ← readDirective? (scan.cursor.forward 1)
  some { scan with tokens := scan.tokens.push (.directive said), cursor := ← skipLine? next }

def openBracket? (scan : Scan) (token : Token) : Option Scan := do
  let scan ← scan.saveKey?
  some ({ scan with key := none, outer := scan.key :: scan.outer, keyAllowed := true }.push token 1)

def closeBracket? (scan : Scan) (token : Token) : Option Scan := do
  let scan ← scan.dropKey?
  let scan := match scan.outer with
    | [] => scan
    | key :: outer => { scan with key, outer }
  some ({ scan with keyAllowed := false }.push token 1)

def comma? (scan : Scan) : Option Scan := do
  some ({ ← scan.dropKey? with keyAllowed := true }.push .comma 1)

def entry? (scan : Scan) (block token : Token) (allowed : Bool) : Option Scan := do
  if !scan.inFlow && !scan.keyAllowed then none
  else do
    let scan := scan.openBlock scan.cursor.place.column scan.tokens.size block
    some ({ ← scan.dropKey? with keyAllowed := allowed }.push token 1)

/-- A colon behind a key, which now shows itself as one, or behind a question mark's key. -/
def value? (scan : Scan) : Option Scan :=
  match scan.key with
  | some start =>
    let tokens := scan.tokens.insertIdxIfInBounds start.token .key
    let scan := { scan with tokens, key := none, keyAllowed := false }
    some ((scan.openBlock start.place.column start.token .mappingStart).push .value 1)
  | none =>
    if !scan.inFlow && !scan.keyAllowed then none
    else
      let scan := scan.openBlock scan.cursor.place.column scan.tokens.size .mappingStart
      some ({ scan with keyAllowed := !scan.inFlow }.push .value 1)

def nodeStart? (scan : Scan) : Option Scan := do
  some { ← scan.saveKey? with keyAllowed := false }

def pushTo (scan : Scan) (token : Token) (cursor : Cursor) : Scan :=
  { scan with tokens := scan.tokens.push token, cursor }

def name? (scan : Scan) (token : String → Token) : Option Scan := do
  let scan ← scan.nodeStart?
  let (name, next) ← readName? (scan.cursor.forward 1)
  some (scan.pushTo (token name) next)

def tag? (scan : Scan) : Option Scan := do
  let scan ← scan.nodeStart?
  let (read, next) ← readTag? scan.inFlow scan.cursor
  some (scan.pushTo (.tag read) next)

def block? (scan : Scan) (style : Style) : Option Scan := do
  let scan ← scan.dropKey?
  let scanned ← readBlockScalar (style == .folded) scan.margin (scan.cursor.forward 1)
  some { scan.pushTo (.scalar scanned.text style) scanned.cursor with keyAllowed := true }

def quoted? (scan : Scan) (mark : Char) : Option Scan := do
  let scan ← scan.nodeStart?
  let start := scan.cursor.forward 1
  let scanned ← readQuoted mark [] {} .text start.place start.rest
  some (scan.pushTo (.scalar scanned.text .quoted) scanned.cursor)

def plain? (scan : Scan) : Option Scan := do
  let scan ← scan.nodeStart?
  let scanned ← readPlain scan.inFlow scan.margin [] {} scan.cursor.place scan.cursor.rest
  some { scan.pushTo (.scalar scanned.text .plain) scanned.cursor with keyAllowed := scanned.newLine }

def token? (scan : Scan) (c : Char) (rest : List Char) : Option Scan :=
  let place := scan.cursor.place
  if place.column == 0 && c == '%' then scan.directive?
  else if atMarkerOf '-' place (c :: rest) then scan.marker? .documentStart
  else if atMarkerOf '.' place (c :: rest) then scan.marker? .documentEnd
  else if c == '[' then scan.openBracket? .bracketOpen
  else if c == '\x7b' then scan.openBracket? .braceOpen
  else if c == ']' then scan.closeBracket? .bracketClose
  else if c == '\x7d' then scan.closeBracket? .braceClose
  else if c == ',' then scan.comma?
  else if c == '-' && atGap rest then scan.entry? .sequenceStart .dash true
  else if c == '?' && (scan.inFlow || atGap rest) then
    scan.entry? .mappingStart .key (!scan.inFlow)
  else if c == ':' && (scan.inFlow || atGap rest) then scan.value?
  else if c == '*' then scan.name? .reference
  else if c == '&' then scan.name? .anchor
  else if c == '!' then scan.tag?
  else if c == '|' && !scan.inFlow then scan.block? .literal
  else if c == '>' && !scan.inFlow then scan.block? .folded
  else if c == '\'' || c == '"' then scan.quoted? c
  else if startsPlain scan.inFlow (c :: rest) then scan.plain?
  else none

def run : Nat → Scan → Option (List Token)
  | 0, _ => none
  | fuel + 1, scan => do
    let (keyAllowed, cursor) :=
      skipGap scan.inFlow scan.keyAllowed false scan.cursor.place scan.cursor.rest
    let scan ← { scan with keyAllowed, cursor }.expireKeys?
    match cursor.rest with
    | [] => some (← scan.standAlone?).tokens.toList
    | c :: rest => run fuel (← (scan.closeBlocks (cursor.place.column < ·)).token? c rest)

end Scan

def ofText? (text : String) : Option (List Token) :=
  let chars := text.toList
  if chars.all isPrintable then Scan.run (chars.length + 1) { cursor := { rest := normalizeBreaks chars } }
  else none

end Token

end DeclGraph.Yaml
