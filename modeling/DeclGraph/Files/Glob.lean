/-! Patterns of paths. A star stands for any run of bytes of one path segment, a double star that fills
a segment for any number of whole segments, and braces hold alternatives. A pattern is written in
characters, but a path is a run of bytes: a question mark and a bracket expression stand for one byte
each, and in a bracket expression a character counts as the set of its bytes. -/
namespace DeclGraph.Files

inductive GlobToken where
  | literal (c : Char)
  | any
  /-- A byte in, or with `negated` outside of, some ranges of characters. It may be a slash. -/
  | oneOf (negated : Bool) (ranges : List (Char × Char))
  /-- Any run of bytes of a segment. -/
  | star
  /-- Any number of whole segments, at the beginning of a path. -/
  | leading
  /-- A slash, any number of whole segments in between, and another slash. -/
  | between
  /-- A slash and all that follows. -/
  | trailing
  /-- One of some alternatives; nothing if there is none. -/
  | either (alternatives : List (List GlobToken))

namespace Glob

inductive Bracket where
  | expression (ranges : List (Char × Char)) (rest : List Char)
  | unclosed
  /-- A range in it ends before it begins. -/
  | malformed

/-- Reads a bracket expression behind its opening. `done` holds the ranges read, last first, and
`opened` says that a dash has just been read, which makes the next character the end of the last
range. A bracket or a dash stands for itself in the first place, and a dash in the last one. -/
def readRanges : List (Char × Char) → Bool → List Char → Bracket
  | _, _, [] => .unclosed
  | [], _, c :: rest => readRanges [(c, c)] false rest
  | (a, b) :: done, opened, c :: rest =>
    if c == ']' then
      .expression ((if opened then ('-', '-') :: (a, b) :: done else (a, b) :: done).reverse) rest
    else if opened then if c < a then .malformed else readRanges ((a, c) :: done) false rest
    else if c == '-' then readRanges ((a, b) :: done) true rest
    else readRanges ((c, c) :: (a, b) :: done) false rest

structure Group where
  /-- The alternatives read, last first. -/
  alternatives : List (List GlobToken)
  /-- The tokens before the braces, last first. -/
  before : List GlobToken

def isNothing : GlobToken → Bool
  | .either [] => true
  | _ => false

def eitherOf (alternatives : List (List GlobToken)) : GlobToken :=
  -- Alternatives that stand for nothing do not count.
  .either (alternatives.filter fun tokens => !tokens.all isNothing)

def mergeDoubleStar (atEnd : Bool) : List GlobToken → List GlobToken
  | .leading :: before => .leading :: before
  | .trailing :: before => .trailing :: before
  -- The slash before the double star is part of its token.
  | _ :: before => (if atEnd then .trailing else .between) :: before
  | [] => []

inductive DoubleStarEnd where
  | last
  | slash (rest : List Char)
  | other

def doubleStarEnd (grouped : Bool) : List Char → DoubleStarEnd
  | [] => .last
  | '/' :: rest => .slash rest
  | c :: _ => if grouped && (c == ',' || c == '\x7d') then .last else .other

/-- The tokens of a pattern; `done` holds those read since the last opening brace or comma, last first,
and `previous` is the character before. A pattern that is not well formed has none. Once a bracket
turns out to be unclosed, it and all later ones stand for themselves. -/
def readTokens : Nat → Bool → Option Char → List GlobToken → List Group → List Char →
    Option (List GlobToken)
  | 0, _, _, _, _, _ => none
  | _ + 1, _, _, done, [], [] => some done.reverse
  | _ + 1, _, _, _, _ :: _, [] => none
  | fuel + 1, literal, previous, done, groups, '*' :: '*' :: rest =>
    let stars := .star :: .star :: done
    if done.isEmpty then
      match rest with
      | [] => readTokens fuel literal (some '*') [.leading] groups []
      | '/' :: rest => readTokens fuel literal (some '/') [.leading] groups rest
      | rest => readTokens fuel literal (some '*') stars groups rest
    else if !(previous == some '/' ||
        (!groups.isEmpty && (previous == some ',' || previous == some '\x7b'))) then
      readTokens fuel literal (some '*') stars groups rest
    else
      match doubleStarEnd (!groups.isEmpty) rest with
      | .last => readTokens fuel literal (some '*') (mergeDoubleStar true done) groups rest
      | .slash rest => readTokens fuel literal (some '/') (mergeDoubleStar false done) groups rest
      | .other => readTokens fuel literal (some '*') stars groups rest
  | fuel + 1, literal, _, done, groups, '[' :: rest =>
    let plain := readTokens fuel true (some '[') (.literal '[' :: done) groups rest
    if literal then plain
    else
      let (negated, inner) := match rest with
        | '!' :: inner => (true, inner)
        | '^' :: inner => (true, inner)
        | inner => (false, inner)
      match readRanges [] false inner with
      | .expression ranges rest =>
        readTokens fuel literal (some ']') (.oneOf negated ranges :: done) groups rest
      | .unclosed => plain
      | .malformed => none
  | fuel + 1, literal, _, done, groups, '\\' :: rest =>
    match rest with
    | [] => none
    | c :: rest => readTokens fuel literal (some c) (.literal c :: done) groups rest
  | fuel + 1, literal, _, done, groups, c :: rest =>
    if c == '*' then readTokens fuel literal (some c) (.star :: done) groups rest
    else if c == '?' then readTokens fuel literal (some c) (.any :: done) groups rest
    else if c == '\x7b' then readTokens fuel literal (some c) [] (⟨[], done⟩ :: groups) rest
    else
      match groups with
      | [] =>
        if c == '\x7d' then none
        else readTokens fuel literal (some c) (.literal c :: done) [] rest
      | group :: outer =>
        let alternatives := done.reverse :: group.alternatives
        if c == ',' then
          readTokens fuel literal (some c) [] ({ group with alternatives } :: outer) rest
        else if c == '\x7d' then
          readTokens fuel literal (some c) (eitherOf alternatives.reverse :: group.before) outer rest
        else readTokens fuel literal (some c) (.literal c :: done) groups rest

def parse? (pattern : List Char) : Option (List GlobToken) :=
  readTokens (pattern.length + 1) false none [] [] pattern

def slash : UInt8 := 0x2F

def bytesOf (c : Char) : List UInt8 :=
  (String.singleton c).toUTF8.toList

/-- The ranges of bytes that a range of characters counts as: the bytes of both of its ends, and what
lies between the last byte of the one and the first byte of the other. -/
def byteRanges (range : Char × Char) : List (UInt8 × UInt8) :=
  if range.1 == range.2 then (bytesOf range.1).map fun b => (b, b)
  else
    let low := bytesOf range.1
    let high := bytesOf range.2
    (low.dropLast ++ high.drop 1).map (fun b => (b, b)) ++
      [(low.getLastD 0, high.headD 0)]

def restsOfSegment : List UInt8 → List (List UInt8)
  | [] => [[]]
  | b :: rest => (b :: rest) :: (if b == slash then [] else restsOfSegment rest)

def restsAfterSlash : List UInt8 → List (List UInt8)
  | [] => []
  | b :: rest => if b == slash then rest :: restsAfterSlash rest else restsAfterSlash rest

def suffixes : List UInt8 → List (List UInt8)
  | [] => [[]]
  | b :: rest => (b :: rest) :: suffixes rest

def afterLiteral : List UInt8 → List UInt8 → List (List UInt8)
  | [], path => [path]
  | a :: bytes, b :: path => if a == b then afterLiteral bytes path else []
  | _ :: _, [] => []

mutual

def rests : GlobToken → List UInt8 → List (List UInt8)
  | .literal c, path => afterLiteral (bytesOf c) path
  | .any, path =>
    match path with
    | [] => []
    | b :: path => if b == slash then [] else [path]
  | .oneOf negated ranges, path =>
    match path with
    | [] => []
    | b :: path =>
      let inside := (ranges.flatMap byteRanges).any fun range => range.1 ≤ b && b ≤ range.2
      if inside != negated then [path] else []
  | .star, path => restsOfSegment path
  | .leading, path => path :: restsAfterSlash path
  | .between, path =>
    match path with
    | [] => []
    | b :: path => if b == slash then path :: restsAfterSlash path else []
  | .trailing, path =>
    match path with
    | [] => []
    | b :: path => if b == slash then suffixes path else []
  | .either alternatives, path =>
    if alternatives.isEmpty then [path] else restsOfAny alternatives path

def restsOfAll : List GlobToken → List (List UInt8) → List (List UInt8)
  | [], found => found
  | token :: tokens, found => restsOfAll tokens (found.flatMap (rests token)).eraseDups

def restsOfAny : List (List GlobToken) → List UInt8 → List (List UInt8)
  | [], _ => []
  | tokens :: alternatives, path => restsOfAll tokens [path] ++ restsOfAny alternatives path

end

def fits (tokens : List GlobToken) (path : List UInt8) : Bool :=
  match tokens with
  -- A double star alone fits every path.
  | [.leading] => true
  | tokens => (restsOfAll tokens [path]).contains []

end Glob

end DeclGraph.Files
