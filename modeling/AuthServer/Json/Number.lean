import AuthServer.Json.Value

/-!
# JSON numerals

A numeral without fraction and exponent that fits 64 bits, signed or
unsigned, is an integer; `-0` and all others are doubles. Of the digits only
those that fit 64 bits count towards a double; the later whole digits scale
it, the later decimals are dropped.
-/

namespace AuthServer.Json

open Decimal

/-- One more than the greatest unsigned number of 64 bits. -/
def word64 : Nat := 18446744073709551616

def digitValue (c : Char) : Nat := c.toNat - 0x30

/-- Reads digits while the number fits 64 bits: the number, and the digits left. -/
def significand : Nat → List Char → Nat × List Char
  | n, [] => (n, [])
  | n, c :: cs =>
    if 10 * n + digitValue c < word64 then significand (10 * n + digitValue c) cs else (n, c :: cs)

/-- The parts of a numeral. -/
structure Numeral where
  negative : Bool
  whole : List Char
  fraction : Option (List Char)
  exponent : Option Int
  deriving DecidableEq, Repr

def decimalNat (cs : List Char) : Nat := cs.foldl (fun n c => 10 * n + digitValue c) 0

def isDigit (c : Char) : Bool := '0' ≤ c && c ≤ '9'

def exponent? : List Char → Option (Option Int)
  | [] => some none
  | e :: cs =>
    if e = 'e' ∨ e = 'E' then
      let (sign, ds) : Int × List Char :=
        match cs with
        | '+' :: ds => (1, ds)
        | '-' :: ds => (-1, ds)
        | ds => (1, ds)
      if ds.isEmpty || !ds.all isDigit then none else some (some (sign * decimalNat ds))
    else none

/-- Splits a numeral; a leading zero stands alone, a point has digits on both sides. -/
def Numeral.ofChars? (cs : List Char) : Option Numeral := do
  let (negative, cs) : Bool × List Char :=
    match cs with
    | '-' :: cs => (true, cs)
    | cs => (false, cs)
  let whole := cs.takeWhile isDigit
  let rest := cs.dropWhile isDigit
  if whole.isEmpty || (whole.length > 1 && whole.head? = some '0') then failure
  match rest with
  | '.' :: rest =>
    let fraction := rest.takeWhile isDigit
    if fraction.isEmpty then failure
    let exponent ← exponent? (rest.dropWhile isDigit)
    return ⟨negative, whole, some fraction, exponent⟩
  | rest =>
    let exponent ← exponent? rest
    return ⟨negative, whole, none, exponent⟩

def Numeral.value? (n : Numeral) : Option Value :=
  let (m, left) := significand 0 n.whole
  let signed (x : Binary64) : Value := .float (if n.negative then x.negate else x)
  match n.fraction, n.exponent, left with
  | none, none, [] =>
    if !n.negative then some (.int m)
    else if m = 0 then some (signed Binary64.zero)
    else if 2 * m ≤ word64 then some (.int (-m))
    else (Binary64.nearest? m 1).map signed
  | _, _, _ =>
    let decimals := n.fraction.getD []
    let (m, dropped) := significand m decimals
    let power : Int := left.length - (decimals.length - dropped.length : Nat) + n.exponent.getD 0
    (Binary64.readDecimal? m power).map signed

def number? (cs : List Char) : Option Value := (Numeral.ofChars? cs).bind Numeral.value?

/-- A double as its own text reads back. -/
def reread (x : Binary64) : Binary64 :=
  match number? x.text.toList with
  | some (.float y) => y
  | _ => x

/-- A value as it comes back from its text: every fraction is read from its digits. -/
def Value.reread : Value → Value
  | .float x => .float (Json.reread x)
  | .arr items => .arr (rereadItems items)
  | .obj members => .obj (rereadMembers members)
  | v => v
where
  rereadItems : List Value → List Value
    | [] => []
    | v :: rest => v.reread :: rereadItems rest
  rereadMembers : List (String × Value) → List (String × Value)
    | [] => []
    | (k, v) :: rest => (k, v.reread) :: rereadMembers rest

end AuthServer.Json
