import AuthServer.Json.Merge
import AuthServer.Text.Blank

/-!
# Reading records out of JSON values

What can be wrong with a value that should be a record, and the readers of
the simple members. A record is an object whose unknown members are passed
over, or the list of its members' values in order.
-/

namespace AuthServer.Json

open Decimal

/-- What a value was expected to be. -/
inductive Shape where
  | text
  | boolean
  | map
  | record (name : String)
  deriving DecidableEq, Repr

def Shape.describe : Shape → String
  | text => "a string"
  | boolean => "a boolean"
  | map => "a map"
  | record name => "struct " ++ name

inductive DecodeError where
  | missing (member : String)
  | mismatch (found : Value) (expected : Shape)
  /-- A list too short for the record. -/
  | tooShort (length : Nat) (name : String) (members : Nat)
  | tooLong (length : Nat)
  /-- Neither a text nor a list of texts. -/
  | noTypeSet

/-! ## Wording -/

/-- Characters that a quoted text shows by their number: controls, spaces other
than U+0020, formats, and combining marks. -/
def unprintableRanges : List (Nat × Nat) :=
  [(0x00, 0x1F), (0x7F, 0xA0), (0xAD, 0xAD), (0x300, 0x36F), (0x483, 0x489), (0x591, 0x5BD),
   (0x600, 0x605), (0x61C, 0x61C), (0x64B, 0x65F), (0x6DD, 0x6DD), (0x1680, 0x1680),
   (0x1AB0, 0x1ACE), (0x1DC0, 0x1DFF), (0x2000, 0x200F), (0x2028, 0x202F), (0x205F, 0x206F),
   (0x20D0, 0x20F0), (0x3000, 0x3000), (0x302A, 0x302F), (0x3099, 0x309A), (0xE000, 0xF8FF),
   (0xFE00, 0xFE0F), (0xFE20, 0xFE2F), (0xFEFF, 0xFEFF), (0xFFF0, 0xFFFB), (0xFFFE, 0xFFFF),
   (0xE0000, 0x10FFFF)]

def isUnprintable (c : Char) : Bool :=
  unprintableRanges.any fun (lo, hi) => lo ≤ c.toNat && c.toNat ≤ hi

def showChar (c : Char) : List Char :=
  if c = '"' then ['\\', '"']
  else if c = '\\' then ['\\', '\\']
  else if c = '\t' then ['\\', 't']
  else if c = '\n' then ['\\', 'n']
  else if c = '\r' then ['\\', 'r']
  else if c = '\x00' then ['\\', '0']
  else if isUnprintable c then
    '\\' :: 'u' :: '\x7b' :: Nat.toDigits 16 c.toNat ++ ['\x7d']
  else [c]

def Value.describe : Value → String
  | .null => "null"
  | .bool true => "boolean `true`"
  | .bool false => "boolean `false`"
  | .int i => "integer `" ++ toString i ++ "`"
  | .float x => "floating point `" ++ x.plainText ++ "`"
  | .str s => "string " ++ String.ofList ('"' :: s.toList.flatMap showChar ++ ['"'])
  | .arr _ => "sequence"
  | .obj _ => "map"

def plural (n : Nat) (word : String) : String := if n = 1 then word else word ++ "s"

def DecodeError.message : DecodeError → String
  | missing member => "missing field `" ++ member ++ "`"
  | mismatch found expected => "invalid type: " ++ found.describe ++ ", expected " ++ expected.describe
  | tooShort length name members =>
    "invalid length " ++ toString length ++ ", expected struct " ++ name ++ " with " ++
      toString members ++ " " ++ plural members "element"
  | tooLong length => "invalid length " ++ toString length ++ ", expected fewer elements in array"
  | noTypeSet => "data did not match any variant of untagged enum Repr"

/-! ## Members -/

abbrev Decoded (α : Type) := Except DecodeError α

def Value.toText : Value → Decoded String
  | .str s => .ok s
  | v => .error (.mismatch v .text)

def Value.toBool : Value → Decoded Bool
  | .bool b => .ok b
  | v => .error (.mismatch v .boolean)

def Value.toParams : Value → Decoded Params
  | .obj members => .ok members
  | v => .error (.mismatch v .map)

/-- Null stands for an absent member. -/
def Value.toOption {α : Type} (read : Value → Decoded α) : Value → Decoded (Option α)
  | .null => .ok none
  | v => (read v).map some

/-- Reads a record of the named members: an object member by member in its own
order, a list by position. The `required` members must be in an object, the
`fixed` ones in a list. -/
def readRecord {δ : Type} (name : String) (members required fixed : List String) (empty : δ)
    (read : δ → String → Value → Decoded δ) : Value → Decoded δ
  | .obj found => do
    let draft ← found.foldlM (fun d (k, v) => if members.contains k then read d k v else .ok d) empty
    match required.find? fun r => !Entries.has found r with
    | some r => .error (.missing r)
    | none => .ok draft
  | .arr items => do
    let draft ← (members.zip items).foldlM (fun d (k, v) => read d k v) empty
    match fixed.find? fun r => items.length ≤ members.idxOf r with
    | some r => .error (.tooShort (members.idxOf r) name members.length)
    | none => if members.length < items.length then .error (.tooLong items.length) else .ok draft
  | v => .error (.mismatch v (.record name))

end AuthServer.Json
