/-!
# Double-precision numbers, exactly

A double-precision number is kept as the exact quantity it denotes: a sign, a whole mantissa and
a power of two. Every operation is computed on exact fractions first and rounded once, to the
nearest representable number and to the even mantissa on a tie, so no operation of the machine's
floating-point unit is involved and equality of two numbers is equality of two fractions.

* `Binary64.round` is the one place where precision is lost.
* `Binary64.toRat?` is the exact value of a finite number.
* `Binary64.ofDecimal` reads `digits · 10 ^ exponent`.
-/

namespace HerdBook

/-- A double-precision number. A finite one stands for `± mantissa · 2 ^ exponent`. -/
inductive Binary64 where
  | finite (negative : Bool) (mantissa : Nat) (exponent : Int)
  | infinite (negative : Bool)
  | nan
  deriving DecidableEq, Inhabited

namespace Binary64

/-- The number of mantissa values below the first one with full precision. -/
def fullPrecision : Nat := 0x10000000000000

/-- The exponent of the subnormal numbers, the smallest there is. -/
def leastExponent : Int := -1074

/-- The exponent of the largest finite numbers. -/
def greatestExponent : Int := 971

/-- The quotient of two whole numbers, rounded to the nearest whole number; a tie goes to the even
neighbour. -/
def divideEven (num den : Nat) : Nat :=
  let q := num / den
  let r := num % den
  if 2 * r < den then q
  else if den < 2 * r then q + 1
  else if q % 2 = 0 then q else q + 1

/-- The fraction `num / den` divided by `2 ^ e`, as a numerator and a denominator. -/
def scaleDown (num den : Nat) (e : Int) : Nat × Nat :=
  if e ≤ 0 then (num * Nat.pow 2 (-e).toNat, den) else (num, den * Nat.pow 2 e.toNat)

/-- The exponent at which `num / den` has a mantissa of full precision, or the least exponent when
the fraction is too small for that. -/
def exponentFor (num den : Nat) : Int :=
  let guess : Int := (num.log2 : Int) - (den.log2 : Int) - 52
  let (n, d) := scaleDown num den guess
  max (if n < fullPrecision * d then guess - 1 else guess) leastExponent

/-- Zero with a sign. -/
def zero (negative : Bool) : Binary64 := .finite negative 0 leastExponent

/-- The double-precision number nearest to `± num / den`, the even one on a tie; infinite when the
fraction lies beyond the largest finite number. -/
def round (negative : Bool) (num den : Nat) : Binary64 :=
  if num = 0 then zero negative
  else
    let e := exponentFor num den
    let (n, d) := scaleDown num den e
    let m := divideEven n d
    let (m, e) := if m = 2 * fullPrecision then (fullPrecision, e + 1) else (m, e)
    if m = 0 then zero negative
    else if greatestExponent < e then .infinite negative
    else .finite negative m e

/-- The double-precision number nearest to a fraction. -/
def ofRat (q : Rat) : Binary64 := round (decide (q < 0)) q.num.natAbs q.den

/-- The double-precision number nearest to a whole number. -/
def ofInt (n : Int) : Binary64 := round (decide (n < 0)) n.natAbs 1

/-- The magnitude `mantissa · 2 ^ exponent` as a numerator and a denominator. -/
def magnitude (mantissa : Nat) (exponent : Int) : Nat × Nat :=
  if exponent < 0 then (mantissa, Nat.pow 2 (-exponent).toNat)
  else (mantissa * Nat.pow 2 exponent.toNat, 1)

/-- The exact value of a finite number. -/
def toRat? : Binary64 → Option Rat
  | .finite negative mantissa exponent =>
    let (n, d) := magnitude mantissa exponent
    some (if negative then -mkRat n d else mkRat n d)
  | _ => none

/-- Whether the sign is negative; zero has a sign too. -/
def isNegative : Binary64 → Bool
  | .finite negative _ _ => negative
  | .infinite negative => negative
  | .nan => false

/-- Whether the number is zero, of either sign. -/
def isZero : Binary64 → Bool
  | .finite _ mantissa _ => mantissa == 0
  | _ => false

/-- `± digits · 10 ^ exponent`, rounded once. Exponents far beyond the range are settled without
computing the power. -/
def ofDecimal (negative : Bool) (digits : Nat) (exponent : Int) : Binary64 :=
  if digits = 0 then zero negative
  else
    let places : Int := (digits.log2 : Int) / 3 + 1
    if 400 < exponent then .infinite negative
    else if places + exponent < -400 then zero negative
    else if exponent < 0 then round negative digits (Nat.pow 10 (-exponent).toNat)
    else round negative (digits * Nat.pow 10 exponent.toNat) 1

/-- The sum, rounded once. The sum of two zeros is negative only when both are. -/
def add : Binary64 → Binary64 → Binary64
  | .nan, _ => .nan
  | _, .nan => .nan
  | .infinite a, .infinite b => if a = b then .infinite a else .nan
  | .infinite a, _ => .infinite a
  | _, .infinite b => .infinite b
  | x, y =>
    if x.isZero && y.isZero then zero (x.isNegative && y.isNegative)
    else match x.toRat?, y.toRat? with
      | some a, some b => ofRat (a + b)
      | _, _ => .nan

/-- The remainder of floored division, with the sign of the divisor; `none` for a divisor of
zero. -/
def floorMod? (x y : Binary64) : Option Binary64 :=
  if y.isZero then none
  else match x.toRat?, y with
    | some a, .finite negative _ _ =>
      let b := (y.toRat?).getD 0
      let r := a - b * ((a / b).floor : Rat)
      some (if r = 0 then zero negative else ofRat r)
    | some a, .infinite negative =>
      some (if a = 0 then zero negative
        else if decide (a < 0) = negative then x else .infinite negative)
    | _, _ => some .nan

end Binary64

end HerdBook
