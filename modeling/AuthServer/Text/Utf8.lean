/-!
# UTF-8

Characters to bytes and back. `scan` reads any bytes: each well-formed
sequence gives its character, each maximal prefix that no sequence continues
gives `none`. From it `decode?` accepts well-formed text only and
`decodeLossy` puts U+FFFD for every `none`.
-/

namespace AuthServer.Text.Utf8

def encodeChar (c : Char) : List UInt8 :=
  let n := c.toNat
  if n < 0x80 then [UInt8.ofNat n]
  else if n < 0x800 then [UInt8.ofNat (0xC0 + n / 64), UInt8.ofNat (0x80 + n % 64)]
  else if n < 0x10000 then
    [UInt8.ofNat (0xE0 + n / 4096), UInt8.ofNat (0x80 + n / 64 % 64), UInt8.ofNat (0x80 + n % 64)]
  else
    [UInt8.ofNat (0xF0 + n / 262144), UInt8.ofNat (0x80 + n / 4096 % 64),
     UInt8.ofNat (0x80 + n / 64 % 64), UInt8.ofNat (0x80 + n % 64)]

def encode (cs : List Char) : List UInt8 := cs.flatMap encodeChar

def bytes (s : String) : List UInt8 := encode s.toList

/-- What a first byte announces: how many bytes follow, the bounds of the
second, and the bits it contributes. -/
structure Lead where
  follow : Nat
  low : Nat
  high : Nat
  bits : Nat
  deriving DecidableEq, Repr

def lead? (b : Nat) : Option Lead :=
  if b < 0x80 then some ⟨0, 0x80, 0xBF, b⟩
  else if b < 0xC2 then none
  else if b < 0xE0 then some ⟨1, 0x80, 0xBF, b - 0xC0⟩
  else if b = 0xE0 then some ⟨2, 0xA0, 0xBF, 0⟩
  else if b = 0xED then some ⟨2, 0x80, 0x9F, 0xD⟩
  else if b < 0xF0 then some ⟨2, 0x80, 0xBF, b - 0xE0⟩
  else if b = 0xF0 then some ⟨3, 0x90, 0xBF, 0⟩
  else if b < 0xF4 then some ⟨3, 0x80, 0xBF, b - 0xF0⟩
  else if b = 0xF4 then some ⟨3, 0x80, 0x8F, 4⟩
  else none

/-- Reads the bytes that a first byte announced; stops before one that cannot follow. -/
def follow : Nat → Nat → Nat → Nat → List UInt8 → Option Nat × List UInt8
  | 0, _, _, bits, bs => (some bits, bs)
  | _ + 1, _, _, _, [] => (none, [])
  | n + 1, low, high, bits, b :: bs =>
    if low ≤ b.toNat ∧ b.toNat ≤ high then
      follow n 0x80 0xBF (bits * 64 + (b.toNat - 0x80)) bs
    else (none, b :: bs)

theorem length_follow_le (n low high bits : Nat) (bs : List UInt8) :
    (follow n low high bits bs).2.length ≤ bs.length := by
  induction n generalizing low high bits bs with
  | zero => simp [follow]
  | succ n ih =>
    cases bs with
    | nil => simp [follow]
    | cons b bs =>
      simp only [follow]
      split
      · exact Nat.le_succ_of_le (ih ..)
      · simp

def scan : List UInt8 → List (Option Char)
  | [] => []
  | b :: bs =>
    match lead? b.toNat with
    | none => none :: scan bs
    | some l =>
      (follow l.follow l.low l.high l.bits bs).1.map Char.ofNat ::
        scan (follow l.follow l.low l.high l.bits bs).2
  termination_by bs => bs.length
  decreasing_by
    · simp
    · exact Nat.lt_succ_of_le (length_follow_le ..)

/-- The text of well-formed bytes. -/
def decode? (bs : List UInt8) : Option (List Char) := (scan bs).mapM id

def decodeLossy (bs : List UInt8) : List Char := (scan bs).map (·.getD '\uFFFD')

end AuthServer.Text.Utf8
