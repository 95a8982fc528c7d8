import AuthServer.Json.Value

/-!
# JSON text

The compact form: no spaces, members in order. Inside quotes only the quote,
the backslash and the control characters below U+0020 are escaped.
-/

namespace AuthServer.Json

open Decimal

/-- The lower-case hexadecimal digit of a value below sixteen. -/
def lowerHex (n : Nat) : Char := if n < 10 then Char.ofNat (0x30 + n) else Char.ofNat (0x57 + n)

def escapeChar (c : Char) : List Char :=
  if c = '"' then ['\\', '"']
  else if c = '\\' then ['\\', '\\']
  else if c = '\x08' then ['\\', 'b']
  else if c = '\t' then ['\\', 't']
  else if c = '\n' then ['\\', 'n']
  else if c = '\x0c' then ['\\', 'f']
  else if c = '\r' then ['\\', 'r']
  else if c.toNat < 0x20 then ['\\', 'u', '0', '0', lowerHex (c.toNat / 16), lowerHex (c.toNat % 16)]
  else [c]

def quoted (s : String) : String := String.ofList ('"' :: s.toList.flatMap escapeChar ++ ['"'])

/-- Texts with `sep` between them. -/
def joined (sep : String) : List String → String
  | [] => ""
  | [s] => s
  | s :: rest => s ++ sep ++ joined sep rest

mutual

def Value.text : Value → String
  | .null => "null"
  | .bool true => "true"
  | .bool false => "false"
  | .int i => toString i
  | .float x => x.text
  | .str s => quoted s
  | .arr items => "[" ++ joined "," (textItems items) ++ "]"
  | .obj members => "\x7b" ++ joined "," (textMembers members) ++ "\x7d"

def textItems : List Value → List String
  | [] => []
  | v :: rest => v.text :: textItems rest

def textMembers : List (String × Value) → List String
  | [] => []
  | (k, v) :: rest => (quoted k ++ ":" ++ v.text) :: textMembers rest

end

/-- The text of an object with these members. -/
def paramsText (p : Params) : String := (Value.obj p).text

end AuthServer.Json
