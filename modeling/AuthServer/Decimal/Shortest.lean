import AuthServer.Decimal.Binary64

/-!
# Shortest decimal digits

The fewest significant digits that read back as a given double, and of those
the nearest to it. For one digit, then two, up to seventeen, the two grid
points around the value are tried; the first grid with a point inside the
rounding interval wins.
-/

namespace AuthServer.Decimal

/-- The decimal `digits * 10 ^ power`. -/
structure Scaled where
  digits : Nat
  power : Int
  deriving DecidableEq, Repr

/-- `n / d` over `10 ^ k`, as numerator and denominator. -/
def overTen (n d : Nat) (k : Int) : Nat × Nat :=
  if 0 ≤ k then (n, d * Nat.pow 10 k.toNat) else (n * Nat.pow 10 (-k).toNat, d)

def atLeastTen (n d : Nat) (k : Int) : Bool :=
  let (a, b) := overTen n d k
  b ≤ a

/-- The greatest `k` with `10 ^ k ≤ n / d`, for positive `n` and `d`. -/
def log10Quotient (n d : Nat) : Int :=
  let k := log2Quotient n d * 30103 / 100000
  if atLeastTen n d (k + 1) then k + 1 else if atLeastTen n d k then k else k - 1

/-- The reals that round to a positive double, in quarters of its last place:
numerators `low`, `value` and `high` over one denominator. The ends belong to
the interval when the mantissa is even. -/
structure Rounding where
  low : Nat
  value : Nat
  high : Nat
  denominator : Nat
  closed : Bool

def Binary64.rounding (x : Binary64) : Rounding :=
  let below := if x.mantissa = Nat.pow 2 52 ∧ x.exponent ≠ -1074 then 1 else 2
  let (unit, denominator) := shifted 1 1 (x.exponent - 2)
  ⟨(4 * x.mantissa - below) * unit, 4 * x.mantissa * unit, (4 * x.mantissa + 2) * unit,
    denominator, x.mantissa % 2 = 0⟩

/-- Whether `t * 10 ^ k` rounds to the double. -/
def Rounding.holds (r : Rounding) (t : Nat) (k : Int) : Bool :=
  let (n, d) := if 0 ≤ k then (t * Nat.pow 10 k.toNat, 1) else (t, Nat.pow 10 (-k).toNat)
  if r.closed then r.low * d ≤ n * r.denominator && n * r.denominator ≤ r.high * d
  else r.low * d < n * r.denominator && n * r.denominator < r.high * d

/-- The better of the two multiples of `10 ^ k` around the value, if one is inside. -/
def Rounding.onGrid (r : Rounding) (k : Int) : Option Scaled :=
  let (n, d) := overTen r.value r.denominator k
  let t := n / d
  let rest := n % d
  match r.holds t k, r.holds (t + 1) k with
  | true, true =>
    if 2 * rest < d then some ⟨t, k⟩
    else if d < 2 * rest then some ⟨t + 1, k⟩
    else some ⟨if t % 2 = 0 then t else t + 1, k⟩
  | true, false => some ⟨t, k⟩
  | false, true => some ⟨t + 1, k⟩
  | false, false => none

def Binary64.shortest (x : Binary64) : Scaled :=
  let r := x.rounding
  let first := log10Quotient r.value r.denominator
  ((List.range 17).findSome? fun (n : Nat) => r.onGrid (first - n)).getD ⟨0, 0⟩

/-! ## Layout

Positional when the first digit stands between the fifth decimal and the
sixteenth whole place, always with a decimal point; scientific with a signed
exponent otherwise. -/

structure Layout where
  leastPositional : Int
  greatestPositional : Int
  deriving DecidableEq, Repr

def jsonLayout : Layout := ⟨-5, 15⟩

def digitsOf (n : Nat) : List Char := Nat.toDigits 10 n

/-- Zeros at the end of the digits carried over into the power. -/
def strip (ds : List Char) : List Char := (ds.reverse.dropWhile (· = '0')).reverse

def zeros (n : Nat) : List Char := List.replicate n '0'

/-- The digits `ds`, the first of which stands at `10 ^ first`, with a point. -/
def positional (ds : List Char) (first : Int) : List Char :=
  if first < 0 then '0' :: '.' :: zeros (-first - 1).toNat ++ ds
  else
    let whole := first.toNat + 1
    if ds.length ≤ whole then ds ++ zeros (whole - ds.length) ++ ['.', '0']
    else ds.take whole ++ '.' :: ds.drop whole

def scientific (ds : List Char) (first : Int) : List Char :=
  ds.take 1 ++ (if ds.length ≤ 1 then [] else '.' :: ds.drop 1) ++
    'e' :: (if first < 0 then '-' else '+') :: digitsOf first.natAbs

def Layout.write (l : Layout) (x : Binary64) : List Char :=
  (if x.negative then ['-'] else []) ++
    if x.isZero then ['0', '.', '0']
    else
      let s := x.shortest
      let all := digitsOf s.digits
      let first := s.power + (all.length - 1 : Nat)
      let ds := strip all
      if l.leastPositional ≤ first ∧ first ≤ l.greatestPositional then positional ds first
      else scientific ds first

/-- The text of a fraction in JSON. -/
def Binary64.text (x : Binary64) : String := String.ofList (jsonLayout.write x)

/-- The text of a fraction without an exponent. -/
def Binary64.plainText (x : Binary64) : String :=
  String.ofList (Layout.write ⟨-400, 400⟩ x)

end AuthServer.Decimal
