import DeclGraph.Json.Reader
import DeclGraph.Yaml.Cursor

/-! The scalars of a YAML document: plain ones, quoted ones, and blocks of lines. A plain or quoted
scalar that goes over several lines is folded: one line feed counts as a space, of several the first
is dropped, and any other break stays. -/
namespace DeclGraph.Yaml

structure Scanned where
  text : String
  cursor : Cursor

/-- The blanks and breaks that follow a word of a scalar, last first. Blanks count only before the
first break. -/
structure Spacing where
  blanks : List Char := []
  breaks : List Char := []
  /-- Whether an escaped break stands before them, which joins two lines. -/
  joined : Bool := false

namespace Spacing

def isBroken (spacing : Spacing) : Bool :=
  spacing.joined || !spacing.breaks.isEmpty

def isEmpty (spacing : Spacing) : Bool :=
  spacing.blanks.isEmpty && !spacing.isBroken

def addBlank (spacing : Spacing) (c : Char) : Spacing :=
  if spacing.isBroken then spacing else { spacing with blanks := c :: spacing.blanks }

def addBreak (spacing : Spacing) (c : Char) : Spacing :=
  { spacing with breaks := c :: spacing.breaks }

def fold : List Char → List Char
  | ['\n'] => [' ']
  | '\n' :: breaks => breaks
  | breaks => breaks

def text (spacing : Spacing) : List Char :=
  if spacing.joined then spacing.breaks.reverse
  else if spacing.breaks.isEmpty then spacing.blanks.reverse
  else fold spacing.breaks.reverse

end Spacing

def startsPlain (flow : Bool) : List Char → Bool
  | [] => false
  | c :: rest =>
    if c == '-' then !atGap rest
    else if c == '?' || c == ':' then !flow && !atGap rest
    else
      !(isBlank c || isBreak c || isFlowMark c || c == '#' || c == '&' || c == '*' || c == '!' ||
        c == '|' || c == '>' || c == '\'' || c == '"' || c == '%' || c == '@' || c.toNat == 0x60)

def endsPlain (flow : Bool) (c : Char) (rest : List Char) : Bool :=
  (c == ':' && atGap rest) || (flow && isFlowMark c)

def isStrayColon (flow : Bool) (c : Char) (rest : List Char) : Bool :=
  flow && c == ':' && rest.head?.any fun d => isFlowMark d || d == '?'

structure ScannedPlain extends Scanned where
  newLine : Bool

/-- Reads a plain scalar whose lines are indented by at least `indent`, with the spacing behind it;
`done` holds its characters, last first. A tab may not stand in for indentation. -/
def readPlain (flow : Bool) (indent : Nat) :
    List Char → Spacing → Place → List Char → Option ScannedPlain
  | done, spacing, place, [] =>
    some ⟨⟨String.ofList done.reverse, ⟨place, []⟩⟩, spacing.isBroken⟩
  | done, spacing, place, c :: rest =>
    if isBreak c then readPlain flow indent done (spacing.addBreak c) place.nextLine rest
    else if isBlank c then
      if spacing.isBroken && c == '\t' && place.column < indent then none
      else readPlain flow indent done (spacing.addBlank c) (place.after c) rest
    else if (spacing.isBroken && !flow && place.column < indent) || atMarker place (c :: rest) ||
        (!spacing.isEmpty && c == '#') || endsPlain flow c rest then
      some ⟨⟨String.ofList done.reverse, ⟨place, c :: rest⟩⟩, spacing.isBroken⟩
    else if isStrayColon flow c rest then none
    else readPlain flow indent (c :: (spacing.text.reverse ++ done)) {} (place.after c) rest

def namedEscape? (c : Char) : Option Char :=
  [('0', 0), ('a', 7), ('b', 8), ('t', 9), ('\t', 9), ('n', 10), ('v', 11), ('f', 12), ('r', 13),
    ('e', 27), (' ', 32), ('"', 34), ('/', 47), ('\\', 92), ('N', 0x85), ('_', 0xA0), ('L', 0x2028),
    ('P', 0x2029)].lookup c |>.map Char.ofNat

def numberedEscape? (c : Char) : Option Nat :=
  [('x', 2), ('u', 4), ('U', 8)].lookup c

def charOfNumber? (n : Nat) : Option Char :=
  if n < 0xD800 || (0xE000 ≤ n && n < 0x110000) then some (Char.ofNat n) else none

inductive QuotedPart where
  | text
  | escape
  /-- The number of a character, with the digits still to come besides this one. -/
  | digits (left value : Nat)

def readQuoted (mark : Char) :
    List Char → Spacing → QuotedPart → Place → List Char → Option Scanned
  | _, _, _, _, [] => none
  | done, _, .digits left value, place, c :: rest => do
    let value := value * 16 + (← Json.hexValue? c)
    match left with
    | left + 1 => readQuoted mark done {} (.digits left value) (place.after c) rest
    | 0 => readQuoted mark ((← charOfNumber? value) :: done) {} .text (place.after c) rest
  | done, _, .escape, place, c :: rest =>
    if isBreak c then readQuoted mark done { joined := true } .text place.nextLine rest
    else
      match numberedEscape? c with
      | some count => readQuoted mark done {} (.digits (count - 1) 0) (place.after c) rest
      | none => do readQuoted mark ((← namedEscape? c) :: done) {} .text (place.after c) rest
  | done, spacing, .text, place, c :: rest =>
    if isBreak c then readQuoted mark done (spacing.addBreak c) .text place.nextLine rest
    else if isBlank c then readQuoted mark done (spacing.addBlank c) .text (place.after c) rest
    else if atMarker place (c :: rest) then none
    else
      let done := spacing.text.reverse ++ done
      if c == mark then
        match rest with
        | d :: more =>
          if mark == '\'' && d == '\'' then
            readQuoted mark ('\'' :: done) {} .text ((place.after c).after d) more
          else some ⟨String.ofList done.reverse, ⟨place.after c, d :: more⟩⟩
        | [] => some ⟨String.ofList done.reverse, ⟨place.after c, []⟩⟩
      else if mark == '"' && c == '\\' then readQuoted mark done {} .escape (place.after c) rest
      else readQuoted mark (c :: done) {} .text (place.after c) rest

inductive Chomping where
  | strip
  | clip
  | keep
  deriving DecidableEq

structure BlockHeader where
  chomping : Chomping := .clip
  /-- The indentation beyond that of the enclosing collection, if it is given. -/
  increment : Option Nat := none

def readBlockHeader (cursor : Cursor) : Option (BlockHeader × Cursor) :=
  let chomping? : Char → Option Chomping := fun c =>
    if c == '+' then some .keep else if c == '-' then some .strip else none
  let increment? : Char → Option Nat := fun c =>
    if c.isDigit then some (c.toNat - '0'.toNat) else none
  match cursor.rest with
  | a :: b :: _ =>
    match chomping? a, increment? a with
    | some chomping, _ =>
      match increment? b with
      | some 0 => none
      | some n => some (⟨chomping, some n⟩, cursor.forward 2)
      | none => some (⟨chomping, none⟩, cursor.forward 1)
    | none, some 0 => none
    | none, some n =>
      match chomping? b with
      | some chomping => some (⟨chomping, some n⟩, cursor.forward 2)
      | none => some (⟨.clip, some n⟩, cursor.forward 1)
    | none, none => some ({}, cursor)
  | [a] =>
    match chomping? a, increment? a with
    | some chomping, _ => some (⟨chomping, none⟩, cursor.forward 1)
    | none, some 0 => none
    | none, some n => some (⟨.clip, some n⟩, cursor.forward 1)
    | none, none => some ({}, cursor)
  | [] => some ({}, cursor)

def skipLine? (cursor : Cursor) : Option Cursor :=
  let cursor := cursor.forward (cursor.rest.takeWhile isBlank).length
  let cursor :=
    if cursor.rest.head? == some '#' then
      cursor.forward (cursor.rest.takeWhile fun c => !isBreak c).length
    else cursor
  match cursor.rest with
  | [] => some cursor
  | c :: rest => if isBreak c then some ⟨cursor.place.nextLine, rest⟩ else none

structure EmptyLines where
  breaks : List Char
  width : Nat
  cursor : Cursor

def readEmptyLines (indent : Option Nat) :
    List Char → Nat → Place → List Char → Option EmptyLines
  | breaks, width, place, [] => some ⟨breaks.reverse, max width place.column, ⟨place, []⟩⟩
  | breaks, width, place, c :: rest =>
    let indenting := indent.all (place.column < ·)
    if indenting && c == ' ' then readEmptyLines indent breaks width (place.after c) rest
    else if indenting && c == '\t' then none
    else
      let width := max width place.column
      if isBreak c then readEmptyLines indent (c :: breaks) width place.nextLine rest
      else some ⟨breaks.reverse, width, ⟨place, c :: rest⟩⟩

structure BlockTail where
  /-- The break that ends the last line. -/
  last : List Char := []
  /-- The breaks of the empty lines behind it. -/
  more : List Char
  /-- Whether the last line begins with a blank. -/
  indented : Bool := false

def BlockTail.text (tail : BlockTail) (folded blank : Bool) : List Char :=
  if folded && tail.last == ['\n'] && !tail.indented && !blank then
    (if tail.more.isEmpty then [' '] else []) ++ tail.more
  else tail.last ++ tail.more

/-- Reads the lines of a block that begin in column `indent`; `done` holds what has been written,
last first. Each line takes a character away. -/
def readBlockLines (folded : Bool) (indent : Nat) :
    Nat → List Char → BlockTail → Cursor → Option (List Char × BlockTail × Cursor)
  | 0, done, tail, cursor => some (done, tail, cursor)
  | fuel + 1, done, tail, cursor =>
    if cursor.place.column != indent || cursor.rest.isEmpty then some (done, tail, cursor)
    else do
      let blank := cursor.rest.head?.any isBlank
      let line := cursor.rest.takeWhile fun c => !isBreak c
      let done := line.reverse ++ (tail.text folded blank).reverse ++ done
      let next := cursor.forward line.length
      match next.rest with
      | [] => some (done, ⟨[], [], blank⟩, next)
      | c :: rest => do
        let lines ← readEmptyLines (some indent) [] 0 next.place.nextLine rest
        readBlockLines folded indent fuel done ⟨[c], lines.breaks, blank⟩ lines.cursor

def readBlockScalar (folded : Bool) (margin : Nat) (cursor : Cursor) : Option Scanned := do
  let (header, cursor) ← readBlockHeader cursor
  let cursor ← skipLine? cursor
  let given := header.increment.map (margin - 1 + ·)
  let lines ← readEmptyLines given [] 0 cursor.place cursor.rest
  let indent := given.getD (max lines.width (max margin 1))
  let (done, tail, cursor) ←
    readBlockLines folded indent (cursor.rest.length + 1) [] { more := lines.breaks } lines.cursor
  let ending := match header.chomping with
    | .strip => []
    | .clip => tail.last
    | .keep => tail.last ++ tail.more
  some ⟨String.ofList (done.reverse ++ ending), cursor⟩

end DeclGraph.Yaml
