import DeclGraph.Text.CharRanges

/-! Identifier texts: a letter, an underscore or a dollar sign, followed by any number of those and
of digits. Letters and digits are those of Unicode. -/
namespace DeclGraph.Text

def inRanges (ranges : List (Nat × Nat)) (n : Nat) : Bool :=
  ranges.any fun range => range.1 ≤ n && n ≤ range.2

/-- The derived property `Alphabetic`. Below U+0080 these are the English letters. -/
def isLetter (c : Char) : Bool :=
  c.isAlpha ||
    (0x80 ≤ c.toNat &&
      (inRanges letterRangesLow c.toNat || inRanges letterRangesMiddle c.toNat ||
        inRanges letterRangesHigh c.toNat))

def isLetterOrNumber (c : Char) : Bool :=
  isLetter c || c.isDigit || (0x80 ≤ c.toNat && inRanges numberRanges c.toNat)

def isJoiner (c : Char) : Bool :=
  c == '_' || c == '$'

def isIdentifierChars : List Char → Bool
  | [] => false
  | c :: rest =>
    (isLetter c || isJoiner c) && rest.all fun d => isLetterOrNumber d || isJoiner d

def isIdentifier (s : String) : Bool :=
  isIdentifierChars s.toList

end DeclGraph.Text
