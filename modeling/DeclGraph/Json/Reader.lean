import DeclGraph.Json.Basic

/-! Reading a JSON text. The reader works on the list of characters; at most two nested calls pass
before a character is taken away, so twice the length of the text bounds the depth of the recursion.
An object keeps its keys as they come, repeated ones too. -/
namespace DeclGraph.Json

def isSpace (c : Char) : Bool :=
  c == ' ' || c == '\n' || c == '\r' || c == '\t'

def hexValue? (c : Char) : Option Nat :=
  if c.isDigit then some (c.toNat - 48)
  else if 'a' ≤ c && c ≤ 'f' then some (c.toNat - 87)
  else if 'A' ≤ c && c ≤ 'F' then some (c.toNat - 55)
  else none

def hexUnit? : List Char → Option (Nat × List Char)
  | a :: b :: c :: d :: rest => do
    let a ← hexValue? a
    let b ← hexValue? b
    let c ← hexValue? c
    let d ← hexValue? d
    some (((a * 16 + b) * 16 + c) * 16 + d, rest)
  | _ => none

/-- A character written as one or two escaped units: two for a character above U+FFFF. -/
def escapedUnits? (cs : List Char) : Option (Char × List Char) := do
  let (high, rest) ← hexUnit? cs
  if 0xD800 ≤ high && high < 0xDC00 then
    match rest with
    | '\\' :: 'u' :: more => do
      let (low, rest) ← hexUnit? more
      if 0xDC00 ≤ low && low < 0xE000 then
        some (Char.ofNat (0x10000 + (high - 0xD800) * 0x400 + (low - 0xDC00)), rest)
      else none
    | _ => none
  else if 0xDC00 ≤ high && high < 0xE000 then none
  else some (Char.ofNat high, rest)

def simpleEscape? (c : Char) : Option Char :=
  if c == '"' || c == '\\' || c == '/' then some c
  else if c == 'b' then some '\x08'
  else if c == 'f' then some '\x0c'
  else if c == 'n' then some '\n'
  else if c == 'r' then some '\r'
  else if c == 't' then some '\t'
  else none

def readString : Nat → List Char → List Char → Option (String × List Char)
  | 0, _, _ => none
  | _ + 1, _, [] => none
  | fuel + 1, done, c :: rest =>
    if c == '"' then some (String.ofList done.reverse, rest)
    else if c == '\\' then
      match rest with
      | [] => none
      | 'u' :: units => do
        let (c, rest) ← escapedUnits? units
        readString fuel (c :: done) rest
      | mark :: rest => do
        let c ← simpleEscape? mark
        readString fuel (c :: done) rest
    else if c.toNat < 0x20 then none
    else readString fuel (c :: done) rest

def isNumberChar (c : Char) : Bool :=
  c.isDigit || c == '-' || c == '+' || c == '.' || c == 'e' || c == 'E'

def digitsValue (cs : List Char) : Nat :=
  cs.foldl (fun n c => n * 10 + (c.toNat - 48)) 0

def isWhole (digits : List Char) : Bool :=
  !digits.isEmpty && (digits.length == 1 || digits.head? != some '0')

def isExponent : List Char → Bool
  | [] => true
  | mark :: rest =>
    let digits := match rest with
      | '+' :: digits => digits
      | '-' :: digits => digits
      | digits => digits
    (mark == 'e' || mark == 'E') && !digits.isEmpty && digits.all Char.isDigit

def isFraction : List Char → Bool
  | '.' :: rest =>
    !(rest.takeWhile Char.isDigit).isEmpty && isExponent (rest.dropWhile Char.isDigit)
  | rest => isExponent rest

def isUnsigned (cs : List Char) : Bool :=
  isWhole (cs.takeWhile Char.isDigit) && isFraction (cs.dropWhile Char.isDigit)

/-- An integer is written with digits only, after an optional minus sign. Minus zero is no integer:
it differs from zero as a number. -/
def number? : List Char → Option Json
  | '-' :: cs =>
    if !isUnsigned cs then none
    else if cs.all Char.isDigit && digitsValue cs != 0 then some (.int (-(digitsValue cs : Int)))
    else some (.decimal (String.ofList ('-' :: cs)))
  | cs =>
    if !isUnsigned cs then none
    else if cs.all Char.isDigit then some (.int (digitsValue cs))
    else some (.decimal (String.ofList cs))

mutual

def readValue : Nat → List Char → Option (Json × List Char)
  | 0, _ => none
  | fuel + 1, cs =>
    match cs.dropWhile isSpace with
    | [] => none
    | 'n' :: 'u' :: 'l' :: 'l' :: rest => some (.null, rest)
    | 't' :: 'r' :: 'u' :: 'e' :: rest => some (.bool true, rest)
    | 'f' :: 'a' :: 'l' :: 's' :: 'e' :: rest => some (.bool false, rest)
    | '"' :: rest => (readString fuel [] rest).map fun (text, rest) => (.str text, rest)
    | '[' :: rest =>
      match rest.dropWhile isSpace with
      | ']' :: rest => some (.arr [], rest)
      | _ => readItems fuel [] rest
    | '\x7b' :: rest =>
      match rest.dropWhile isSpace with
      | '\x7d' :: rest => some (.obj [], rest)
      | _ => readFields fuel [] rest
    | rest =>
      (number? (rest.takeWhile isNumberChar)).map fun n => (n, rest.dropWhile isNumberChar)

def readItems : Nat → List Json → List Char → Option (Json × List Char)
  | 0, _, _ => none
  | fuel + 1, done, cs => do
    let (item, rest) ← readValue fuel cs
    match rest.dropWhile isSpace with
    | ',' :: rest => readItems fuel (item :: done) rest
    | ']' :: rest => some (.arr (item :: done).reverse, rest)
    | _ => none

def readFields : Nat → List (String × Json) → List Char → Option (Json × List Char)
  | 0, _, _ => none
  | fuel + 1, done, cs =>
    match cs.dropWhile isSpace with
    | '"' :: rest => do
      let (key, rest) ← readString fuel [] rest
      match rest.dropWhile isSpace with
      | ':' :: rest => do
        let (value, rest) ← readValue fuel rest
        match rest.dropWhile isSpace with
        | ',' :: rest => readFields fuel ((key, value) :: done) rest
        | '\x7d' :: rest => some (.obj ((key, value) :: done).reverse, rest)
        | _ => none
      | _ => none
    | _ => none

end

def parse? (text : String) : Option Json :=
  let cs := text.toList
  match readValue (2 * cs.length + 2) cs with
  | some (value, rest) => if rest.all isSpace then some value else none
  | none => none

end DeclGraph.Json
