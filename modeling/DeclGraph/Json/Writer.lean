import DeclGraph.Json.Basic

/-! The text of a JSON value, on one line and without spaces. -/
namespace DeclGraph.Json

def hexDigit (n : Nat) : Char :=
  if n < 10 then Char.ofNat (48 + n) else Char.ofNat (87 + n)

def escapeChar (c : Char) : String :=
  if c == '"' then "\\\""
  else if c == '\\' then "\\\\"
  else if c == '\x08' then "\\b"
  else if c == '\x0c' then "\\f"
  else if c == '\n' then "\\n"
  else if c == '\r' then "\\r"
  else if c == '\t' then "\\t"
  else if c.toNat < 0x20 then
    "\\u00" ++ String.ofList [hexDigit (c.toNat / 16), hexDigit (c.toNat % 16)]
  else String.singleton c

def quote (out text : String) : String :=
  (text.toList.foldl (fun out c => out ++ escapeChar c) (out.push '"')).push '"'

mutual

def write (out : String) : Json → String
  | .null => out ++ "null"
  | .bool true => out ++ "true"
  | .bool false => out ++ "false"
  | .int n => out ++ toString n
  | .decimal text => out ++ text
  | .str text => quote out text
  | .arr [] => out ++ "[]"
  | .arr (item :: rest) => writeItems (write (out.push '[') item) rest
  | .obj [] => out ++ "\x7b\x7d"
  | .obj ((key, value) :: rest) =>
    writeFields (write ((quote (out.push '\x7b') key).push ':') value) rest

def writeItems (out : String) : List Json → String
  | [] => out.push ']'
  | item :: rest => writeItems (write (out.push ',') item) rest

def writeFields (out : String) : List (String × Json) → String
  | [] => out.push '\x7d'
  | (key, value) :: rest =>
    writeFields (write ((quote (out.push ',') key).push ':') value) rest

end

def render (value : Json) : String :=
  value.write ""

end DeclGraph.Json
