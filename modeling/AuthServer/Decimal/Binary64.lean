/-!
# Double-precision numbers

Finite doubles as a sign, a mantissa and a power of two, and the rounding of
an exact quotient of natural numbers to the nearest of them, ties to the even
mantissa. `readDecimal` is the reading of a decimal numeral in two roundings:
the digits, then their product or quotient with the rounded power of ten.
-/

namespace AuthServer.Decimal

/-- The value `mantissa * 2 ^ exponent`, negated if `negative`. -/
structure Binary64 where
  negative : Bool
  mantissa : Nat
  exponent : Int
  deriving DecidableEq, Repr, Inhabited

/-- The nearest integer to `n / d`; a half goes to the even neighbour. -/
def roundQuotient (n d : Nat) : Nat :=
  let q := n / d
  let r := n % d
  if 2 * r < d then q else if d < 2 * r then q + 1 else if q % 2 = 0 then q else q + 1

/-- The fraction `n / d` times `2 ^ e`, as numerator and denominator. -/
def shifted (n d : Nat) (e : Int) : Nat × Nat :=
  if 0 ≤ e then (n * Nat.pow 2 e.toNat, d) else (n, d * Nat.pow 2 (-e).toNat)

/-- The greatest `e` with `2 ^ e ≤ n / d`, for positive `n` and `d`. -/
def log2Quotient (n d : Nat) : Int :=
  let e : Int := Nat.log2 n - Nat.log2 d
  let (a, b) := shifted n d (-e)
  if b ≤ a then e else e - 1

namespace Binary64

def zero : Binary64 := ⟨false, 0, -1074⟩

def isZero (x : Binary64) : Bool := x.mantissa = 0

def negate (x : Binary64) : Binary64 := { x with negative := !x.negative }

/-- The double nearest to `n / d`; `none` when it would be infinite. -/
def nearest? (n d : Nat) : Option Binary64 :=
  if n = 0 then some zero
  else
    let e : Int := max (-1074) (log2Quotient n d - 52)
    let (a, b) := shifted n d (-e)
    let m := roundQuotient a b
    let (m, e) := if m = Nat.pow 2 53 then (Nat.pow 2 52, e + 1) else (m, e)
    if 971 < e then none else some ⟨false, m, e⟩

/-- The magnitude as an exact fraction. -/
def fraction (x : Binary64) : Nat × Nat := shifted x.mantissa 1 x.exponent

/-- The double nearest to `10 ^ k`, for `k` up to 308. -/
def powerOfTen (k : Nat) : Binary64 := (nearest? (Nat.pow 10 k) 1).getD zero

def times? (x y : Binary64) : Option Binary64 :=
  nearest? (x.fraction.1 * y.fraction.1) (x.fraction.2 * y.fraction.2)

def over? (x y : Binary64) : Option Binary64 :=
  nearest? (x.fraction.1 * y.fraction.2) (x.fraction.2 * y.fraction.1)

/-- Division by `10 ^ k`, in steps of at most `10 ^ 308`. -/
def scaleDown? (x : Binary64) (k : Nat) : Option Binary64 :=
  if k ≤ 308 then x.over? (powerOfTen k)
  else if x.isZero then some x
  else (x.over? (powerOfTen 308)).bind fun y => scaleDown? y (k - 308)
  termination_by k
  decreasing_by omega

def scaleUp? (x : Binary64) (k : Nat) : Option Binary64 :=
  if k ≤ 308 then x.times? (powerOfTen k)
  else if x.isZero then some x
  else none

/-- The double read from the digits `significand` and a power of ten. -/
def readDecimal? (significand : Nat) (power : Int) : Option Binary64 :=
  (nearest? significand 1).bind fun x =>
    if 0 ≤ power then x.scaleUp? power.toNat else x.scaleDown? (-power).toNat

example : readDecimal? 15 (-1) = some ⟨false, 6755399441055744, -52⟩ := by decide +kernel

end Binary64

end AuthServer.Decimal
