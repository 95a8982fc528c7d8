import AuthServer.Text.Utf8

/-!
# Percent encoding

ASCII letters, digits and `-_.~` stand for themselves; every other byte of
the UTF-8 form is `%` and two upper-case hexadecimal digits. Reading keeps a
`%` that no two hexadecimal digits follow.
-/

namespace AuthServer.Text.Percent

def isUnreserved (b : UInt8) : Bool :=
  let n := b.toNat
  (0x30 ≤ n && n ≤ 0x39) || (0x41 ≤ n && n ≤ 0x5A) || (0x61 ≤ n && n ≤ 0x7A) ||
    n = 0x2D || n = 0x5F || n = 0x2E || n = 0x7E

/-- The upper-case hexadecimal digit of a value below sixteen. -/
def hexDigit (n : Nat) : Char := if n < 10 then Char.ofNat (0x30 + n) else Char.ofNat (0x37 + n)

def encodeByte (b : UInt8) : List Char :=
  if isUnreserved b then [Char.ofNat b.toNat]
  else ['%', hexDigit (b.toNat / 16), hexDigit (b.toNat % 16)]

def encodeChars (cs : List Char) : List Char := (Utf8.encode cs).flatMap encodeByte

def encode (s : String) : String := String.ofList (encodeChars s.toList)

def hexValue? (b : UInt8) : Option Nat :=
  let n := b.toNat
  if 0x30 ≤ n ∧ n ≤ 0x39 then some (n - 0x30)
  else if 0x41 ≤ n ∧ n ≤ 0x46 then some (n - 0x37)
  else if 0x61 ≤ n ∧ n ≤ 0x66 then some (n - 0x57)
  else none

def decode : List UInt8 → List UInt8
  | 0x25 :: a :: b :: rest =>
    match hexValue? a, hexValue? b with
    | some x, some y => UInt8.ofNat (16 * x + y) :: decode rest
    | _, _ => 0x25 :: decode (a :: b :: rest)
  | b :: rest => b :: decode rest
  | [] => []

end AuthServer.Text.Percent
